import UpgradeSafety.Proofs.TypeId.LookAhead

/-!
# Decoding bytes

Type identifiers may be decoded byte by byte. The letters and marks of tokens are single bytes that
occur in no other character, so the bytes of every other character are copied, and what comes out
are the bytes of the decoded text.
-/

namespace UpgradeSafety.TypeId

/-- The encoding of type identifiers over bytes. -/
def bytes : Encoding UInt8 where
  tokens := [⟨[0x24, 0x5F], 0x28⟩, ⟨[0x5F, 0x24, 0x5F], 0x2C⟩, ⟨[0x5F, 0x24], 0x29⟩]
  isLetter b := b = 0x5F || b = 0x24
  nonempty := by decide
  spelled := by simp
  marked := by decide

/-! ## Characters and their bytes -/

/-- The bytes of a text. -/
def utf8 (text : List Char) : List UInt8 := text.flatMap String.utf8EncodeChar

/-- A token over the bytes of its characters. -/
def Sign.inBytes (t : Sign Char) : Sign UInt8 := ⟨utf8 t.letters, UInt8.ofNat t.mark.toNat⟩

lemma bytes_tokens : bytes.tokens = characters.tokens.map Sign.inBytes := rfl

@[simp] lemma utf8_nil : utf8 [] = [] := rfl

@[simp] lemma utf8_cons (c : Char) (text : List Char) :
    utf8 (c :: text) = String.utf8EncodeChar c ++ utf8 text := List.flatMap_cons

@[simp] lemma utf8_append (text text' : List Char) :
    utf8 (text ++ text') = utf8 text ++ utf8 text' := List.flatMap_append

/-- A character is one byte below 128, or all its bytes are others. -/
lemma utf8EncodeChar_cases (c : Char) :
    (c.toNat < 128 ∧ String.utf8EncodeChar c = [UInt8.ofNat c.toNat]) ∨
      (128 ≤ c.toNat ∧ ∀ b ∈ String.utf8EncodeChar c, 128 ≤ b.toNat) := by
  have code : c.val.toNat = c.toNat := rfl
  rw [String.utf8EncodeChar, code]
  by_cases ascii : c.toNat ≤ 0x7F
  · exact .inl ⟨by omega, if_pos ascii⟩
  · refine .inr ⟨by omega, fun b mem => ?_⟩
    rw [if_neg ascii] at mem
    -- two, three or four bytes, each of them a remainder behind a marker
    have marked {n : Nat} (high : 128 ≤ n % 256) : 128 ≤ (UInt8.ofNat n).toNat := by
      rwa [UInt8.toNat_ofNat']
    split at mem
    · simp only [List.mem_cons, List.not_mem_nil, or_false] at mem
      rcases mem with rfl | rfl <;> exact marked (by omega)
    · split at mem
      · simp only [List.mem_cons, List.not_mem_nil, or_false] at mem
        rcases mem with rfl | rfl | rfl <;> exact marked (by omega)
      · simp only [List.mem_cons, List.not_mem_nil, or_false] at mem
        rcases mem with rfl | rfl | rfl | rfl <;> exact marked (by omega)

lemma byte_eq {c d : Char} (ascii : c.toNat < 128) (ascii' : d.toNat < 128)
    (same : UInt8.ofNat c.toNat = UInt8.ofNat d.toNat) : c = d := by
  have codes := congrArg UInt8.toNat same
  rw [UInt8.toNat_ofNat', UInt8.toNat_ofNat'] at codes
  exact Char.toNat_inj.1 (by omega)

/-- The byte of a letter, and only that, is the letter. -/
lemma isLetter_cases (c : Char) :
    (c.toNat < 128 ∧ characters.isLetter c = true ∧
      ∃ b, String.utf8EncodeChar c = [b] ∧ bytes.isLetter b = true) ∨
    (characters.isLetter c = false ∧ ∀ b ∈ String.utf8EncodeChar c, bytes.isLetter b = false) := by
  have plain {b : UInt8} (low : b.toNat ≠ 0x5F) (dollar : b.toNat ≠ 0x24) :
      bytes.isLetter b = false := by
    simp only [bytes, Bool.or_eq_false_iff, decide_eq_false_iff_not]
    exact ⟨fun same => low (same ▸ rfl), fun same => dollar (same ▸ rfl)⟩
  by_cases letter : characters.isLetter c = true
  · refine .inl ?_
    simp only [characters, isTokenChar, Bool.or_eq_true, decide_eq_true_eq] at letter
    rcases letter with rfl | rfl
    · exact ⟨by decide, rfl, 0x5F, rfl, rfl⟩
    · exact ⟨by decide, rfl, 0x24, rfl, rfl⟩
  · refine .inr ⟨Bool.not_eq_true _ ▸ letter, fun b mem => ?_⟩
    simp only [characters, isTokenChar, Bool.or_eq_true, decide_eq_true_eq, not_or] at letter
    rcases utf8EncodeChar_cases c with ⟨ascii, single⟩ | ⟨_, high⟩
    · rw [single, List.mem_singleton] at mem
      subst mem
      have code : (UInt8.ofNat c.toNat).toNat = c.toNat := by
        rw [UInt8.toNat_ofNat']
        omega
      exact plain (fun same => letter.1 (Char.toNat_inj.1 (code.symm.trans same)))
        (fun same => letter.2 (Char.toNat_inj.1 (code.symm.trans same)))
    · have := high b mem
      exact plain (by omega) (by omega)

/-- ASCII characters in front of a text are told by their bytes. -/
lemma utf8_eq_append {l text : List Char} {rest : List UInt8} (ascii : ∀ c ∈ l, c.toNat < 128)
    (same : utf8 text = utf8 l ++ rest) : ∃ text', text = l ++ text' ∧ utf8 text' = rest := by
  induction l generalizing text with
  | nil => exact ⟨text, rfl, same⟩
  | cons c l ih =>
    rcases utf8EncodeChar_cases c with ⟨low, single⟩ | ⟨high, _⟩
    · rw [utf8_cons, single, List.singleton_append, List.cons_append] at same
      cases text with
      | nil => cases same
      | cons d text =>
        rw [utf8_cons] at same
        rcases utf8EncodeChar_cases d with ⟨low', single'⟩ | ⟨_, high⟩
        · rw [single', List.singleton_append] at same
          obtain ⟨first, others⟩ := List.cons.inj same
          obtain ⟨text', rfl, behind⟩ := ih (fun e mem => ascii e (.tail _ mem)) others
          exact ⟨text', by rw [byte_eq low' low first, List.cons_append], behind⟩
        · cases encoded : String.utf8EncodeChar d with
          | nil => exact absurd encoded String.utf8EncodeChar_ne_nil
          | cons b bs =>
            have above := high b (encoded ▸ List.mem_cons_self)
            rw [encoded, List.cons_append] at same
            rw [(List.cons.inj same).1, UInt8.toNat_ofNat'] at above
            omega
    · have low := ascii c List.mem_cons_self
      omega

/-! ## Decoding the bytes of a text -/

variable {t : Sign Char} {text rest out : List Char} {c : Char}

lemma letters_ascii (mem : t ∈ characters.tokens) : ∀ c ∈ t.letters, c.toNat < 128 := by
  intro c letter
  rcases isLetter_cases c with ⟨ascii, _⟩ | ⟨plain, _⟩
  · exact ascii
  · rw [characters.spelled t mem c letter] at plain
    cases plain

lemma mem_bytes_tokens {u : Sign UInt8} (mem : u ∈ bytes.tokens) :
    ∃ t ∈ characters.tokens, t.inBytes = u := by
  rw [bytes_tokens] at mem
  exact List.mem_map.1 mem

lemma continues_utf8_iff : bytes.Continues (utf8 text) ↔ characters.Continues text := by
  constructor
  · rintro ⟨run, last, tokens, same, ends⟩
    induction run generalizing text with
    | nil =>
      refine Encoding.continues_of_end fun c first => ?_
      cases text with
      | nil => cases first
      | cons d text =>
        cases first
        rcases isLetter_cases c with ⟨_, _, b, single, letter⟩ | ⟨plain, _⟩
        · rw [utf8_cons, single, List.flatMap_nil, List.nil_append] at same
          have plain := ends b (by rw [← same]; rfl)
          rw [letter] at plain
          cases plain
        · exact plain
    | cons u run ih =>
      obtain ⟨t, mem, rfl⟩ := mem_bytes_tokens (tokens u List.mem_cons_self)
      rw [List.flatMap_cons, List.append_assoc] at same
      obtain ⟨text', rfl, behind⟩ := utf8_eq_append (letters_ascii mem) same
      exact (ih (fun v mem => tokens v (.tail _ mem)) behind).cons mem
  · rintro ⟨run, last, tokens, rfl, ends⟩
    induction run with
    | nil =>
      refine Encoding.continues_of_end fun b first => ?_
      cases last with
      | nil => cases first
      | cons c last =>
        rcases isLetter_cases c with ⟨_, letter, _⟩ | ⟨_, plain⟩
        · rw [ends c rfl] at letter
          cases letter
        · cases encoded : String.utf8EncodeChar c with
          | nil => exact absurd encoded String.utf8EncodeChar_ne_nil
          | cons d ds =>
            rw [List.flatMap_nil, List.nil_append, utf8_cons, encoded] at first
            cases first
            exact plain b (encoded ▸ List.mem_cons_self)
    | cons t run ih =>
      have mem := tokens t List.mem_cons_self
      rw [List.flatMap_cons, List.append_assoc, utf8_append]
      have mem' : t.inBytes ∈ bytes.tokens := List.mem_map_of_mem mem
      exact (ih fun u mem => tokens u (.tail _ mem)).cons mem'

lemma stands_utf8_iff (mem : t ∈ characters.tokens) :
    bytes.Stands t.inBytes (utf8 text) ↔ characters.Stands t text := by
  constructor
  · rintro ⟨rest, same, continues⟩
    obtain ⟨text', rfl, rfl⟩ := utf8_eq_append (letters_ascii mem) same
    exact ⟨text', rfl, continues_utf8_iff.1 continues⟩
  · rintro ⟨rest, rfl, continues⟩
    exact ⟨utf8 rest, utf8_append _ _, continues_utf8_iff.2 continues⟩

lemma takes_utf8 (takes : characters.Takes t text) : bytes.Takes t.inBytes (utf8 text) := by
  have mem := takes.mem
  obtain ⟨stands, before, after, parts, none⟩ := takes
  refine ⟨(stands_utf8_iff mem).2 stands, before.map Sign.inBytes, after.map Sign.inBytes, ?_, ?_⟩
  · rw [bytes_tokens, parts, List.map_append, List.map_cons]
  · intro u mapped
    obtain ⟨v, earlier, rfl⟩ := List.mem_map.1 mapped
    rw [stands_utf8_iff (by simp [parts, earlier])]
    exact none v earlier

/-- The bytes of a text are decoded as its characters are. -/
lemma scans_utf8 (scans : characters.Scans text out) : bytes.Scans (utf8 text) (utf8 out) := by
  induction scans with
  | done => exact .done
  | @decoded t rest out takes _ ih =>
    have mark : utf8 (t.mark :: out) = t.inBytes.mark :: utf8 out := by
      have plain : ∀ u ∈ characters.tokens,
          String.utf8EncodeChar u.mark = [UInt8.ofNat u.mark.toNat] := by decide
      rw [utf8_cons, plain t takes.mem]
      rfl
    have taken := takes_utf8 takes
    rw [utf8_append] at taken ⊢
    rw [mark]
    exact .decoded taken ih
  | @copied c rest out none _ ih =>
    rcases isLetter_cases c with ⟨_, _, b, single, _⟩ | ⟨_, plain⟩
    · have none' : ∀ u ∈ bytes.tokens, ¬ bytes.Stands u (utf8 (c :: rest)) := by
        intro u mapped
        obtain ⟨t, mem, rfl⟩ := mem_bytes_tokens mapped
        rw [stands_utf8_iff mem]
        exact none t mem
      rw [utf8_cons, single] at none' ⊢
      rw [utf8_cons, single]
      exact .copied none' ih
    · rw [utf8_cons, utf8_cons]
      exact ih.plain plain

lemma decode_utf8 (text : List Char) : bytes.decode (utf8 text) = utf8 (decodeChars text) := by
  have scans := Encoding.scans_decode (e := characters) text
  rw [decode_characters] at scans
  exact Encoding.scans_iff.1 (scans_utf8 scans)

lemma toUTF8_eq (s : String) : s.toUTF8.data.toList = utf8 s.toList := by
  rw [String.toUTF8_eq_toByteArray, ← String.utf8Encode_toList, List.utf8Encode,
    List.data_toByteArray, utf8]

lemma fromUTF8?_utf8 (text : List Char) :
    String.fromUTF8? (utf8 text).toByteArray = some (String.ofList text) := by
  have valid : (utf8 text).toByteArray.IsValidUTF8 := .intro text rfl
  rw [String.fromUTF8?, dif_pos valid, Option.some_inj, ← String.toByteArray_inj,
    String.toByteArray_ofList]
  rfl

/--
Decoding is the scan that looks ahead, over the characters of a text and over its bytes; the tables
made from the back tell for each tail whether it goes on as the scan asks for. The decoded bytes
are those of a text, the decoded one, so they are never replaced by others.
-/
theorem decoding_looks_ahead (s : String) :
    (∀ n flag, (continuations s.toList)[n]? = some flag ↔
      n ≤ s.toList.length ∧ (flag = true ↔ characters.Continues (s.toList.drop n))) ∧
    (∀ out, characters.Scans s.toList out ↔ (decode s).toList = out) ∧
    (∀ n flag, (bytes.flags s.toUTF8.data.toList)[n]? = some flag ↔
      n ≤ s.toUTF8.data.toList.length ∧
        (flag = true ↔ bytes.Continues (s.toUTF8.data.toList.drop n))) ∧
    (∀ out, bytes.Scans s.toUTF8.data.toList out ↔ bytes.decode s.toUTF8.data.toList = out) ∧
    String.fromUTF8? (bytes.decode s.toUTF8.data.toList).toByteArray = some (decode s) := by
  refine ⟨fun n flag => ?_, fun out => ?_, Encoding.flags_getElem?_eq_some_iff _,
    fun out => Encoding.scans_iff, ?_⟩
  · rw [← flags_characters]
    exact Encoding.flags_getElem?_eq_some_iff s.toList n flag
  · rw [Encoding.scans_iff, decode_characters, toList_decode]
  · rw [toUTF8_eq, decode_utf8, fromUTF8?_utf8]
    rfl

end UpgradeSafety.TypeId
