import Mathlib.Tactic.Lemma
import UpgradeSafety.TypeId.Encoding

/-!
# Looking ahead

An encoding of characters by letters, and decoding as a scan: where a token stands and some further
tokens lead from its end to the end of the text or to a character that is no letter, the first such
token is decoded, and any other character is copied. The table that is made from the back tells
just where this is so. What is decoded has no token left to decode.
-/

namespace UpgradeSafety.TypeId

/-- A mark with the letters that are written for it. -/
structure Sign (α : Type) where
  letters : List α
  mark : α

/-- The tokens of an encoding in the order in which they are tried. -/
structure Encoding (α : Type) where
  tokens : List (Sign α)
  isLetter : α → Bool
  nonempty : ∀ t ∈ tokens, t.letters ≠ []
  spelled : ∀ t ∈ tokens, ∀ c ∈ t.letters, isLetter c = true
  marked : ∀ t ∈ tokens, isLetter t.mark = false

namespace Encoding

variable {α : Type} (e : Encoding α)

/-! ## Decoding as a scan -/

/-- Some tokens lead to the end of the text or to a character that is no letter. -/
def Continues (text : List α) : Prop :=
  ∃ (run : List (Sign α)) (rest : List α), (∀ t ∈ run, t ∈ e.tokens) ∧
    text = run.flatMap Sign.letters ++ rest ∧ ∀ c ∈ rest.head?, e.isLetter c = false

/-- A token stands in front of the text and may be decoded. -/
def Stands (t : Sign α) (text : List α) : Prop :=
  ∃ rest, text = t.letters ++ rest ∧ e.Continues rest

/-- A token is the first one that does. -/
def Takes (t : Sign α) (text : List α) : Prop :=
  e.Stands t text ∧ ∃ before after, e.tokens = before ++ t :: after ∧
    ∀ u ∈ before, ¬ e.Stands u text

/-- A text is decoded from left to right. -/
inductive Scans : List α → List α → Prop where
  | done : Scans [] []
  | decoded {t : Sign α} {rest out : List α} (takes : e.Takes t (t.letters ++ rest))
      (further : Scans rest out) : Scans (t.letters ++ rest) (t.mark :: out)
  | copied {c : α} {rest out : List α} (none : ∀ t ∈ e.tokens, ¬ e.Stands t (c :: rest))
      (further : Scans rest out) : Scans (c :: rest) (c :: out)

section

variable {e} {t : Sign α} {text rest out : List α} {c : α}

lemma Takes.mem (takes : e.Takes t text) : t ∈ e.tokens := by
  obtain ⟨_, before, after, parts, _⟩ := takes
  simp [parts]

lemma Takes.continues (takes : e.Takes t (t.letters ++ rest)) : e.Continues rest := by
  obtain ⟨⟨rest', same, continues⟩, _⟩ := takes
  rwa [List.append_cancel_left same]

lemma continues_of_end (ends : ∀ c ∈ text.head?, e.isLetter c = false) : e.Continues text :=
  ⟨[], text, by simp, rfl, ends⟩

lemma Continues.behind {run : List (Sign α)} (tokens : ∀ t ∈ run, t ∈ e.tokens)
    (h : e.Continues text) : e.Continues (run.flatMap Sign.letters ++ text) := by
  obtain ⟨more, rest, tokens', rfl, ends⟩ := h
  refine ⟨run ++ more, rest, ?_, by simp, ends⟩
  exact List.forall_mem_append.2 ⟨tokens, tokens'⟩

lemma Continues.cons (mem : t ∈ e.tokens) (h : e.Continues text) :
    e.Continues (t.letters ++ text) := by
  have behind := h.behind (List.forall_mem_singleton.2 mem)
  rwa [List.flatMap_singleton] at behind

lemma not_stands_nil (mem : t ∈ e.tokens) : ¬ e.Stands t [] := by
  rintro ⟨rest, same, _⟩
  exact e.nonempty t mem (List.append_eq_nil_iff.1 same.symm).1

lemma not_stands_of_plain (mem : t ∈ e.tokens) (plain : e.isLetter c = false) :
    ¬ e.Stands t (c :: text) := by
  rintro ⟨rest, same, _⟩
  cases letters : t.letters with
  | nil => exact e.nonempty t mem letters
  | cons d letters' =>
    rw [letters, List.cons_append] at same
    have letter := e.spelled t mem d (letters ▸ List.mem_cons_self)
    rw [← (List.cons.inj same).1, plain] at letter
    cases letter

/-- Characters that are no letters are copied. -/
lemma Scans.plain {l : List α} (further : e.Scans rest out)
    (plain : ∀ c ∈ l, e.isLetter c = false) : e.Scans (l ++ rest) (l ++ out) := by
  induction l with
  | nil => exact further
  | cons c l ih =>
    refine .copied (fun t mem => not_stands_of_plain mem (plain c List.mem_cons_self)) ?_
    exact ih fun d mem => plain d (.tail _ mem)

/-! ## What is left when a text has been decoded -/

/-- Letters that a decoded text begins with have been copied. -/
lemma Scans.letters {l out' : List α} (scans : e.Scans text out)
    (letters : ∀ c ∈ l, e.isLetter c = true) (same : out = l ++ out') :
    ∃ rest, text = l ++ rest ∧ e.Scans rest out' := by
  induction l generalizing text out with
  | nil =>
    subst same
    exact ⟨text, rfl, scans⟩
  | cons c l ih =>
    cases scans with
    | done => cases same
    | @decoded t rest out takes further =>
      have plain := e.marked t takes.mem
      have letter := letters c List.mem_cons_self
      rw [(List.cons.inj same).1, letter] at plain
      cases plain
    | copied none further =>
      obtain ⟨rfl, others⟩ := List.cons.inj same
      obtain ⟨rest, rfl, behind⟩ := ih further (fun d mem => letters d (.tail _ mem)) others
      exact ⟨rest, rfl, behind⟩

/-- Where a decoded text may go on behind a token, the text itself may. -/
lemma Scans.continues (scans : e.Scans text out) (h : e.Continues out) : e.Continues text := by
  obtain ⟨run, last, tokens, same, ends⟩ := h
  have letters : ∀ c ∈ run.flatMap Sign.letters, e.isLetter c = true := by
    intro c mem
    obtain ⟨t, inRun, inLetters⟩ := List.mem_flatMap.1 mem
    exact e.spelled t (tokens t inRun) c inLetters
  obtain ⟨rest, rfl, further⟩ := scans.letters letters same
  refine Continues.behind tokens ?_
  cases further with
  | done => exact continues_of_end (by simp)
  | decoded takes _ => exact takes.continues.cons takes.mem
  | copied _ _ => exact continues_of_end ends

/-- No token of a decoded text may be decoded. -/
lemma Scans.not_stands (scans : e.Scans text out) (n : Nat) (mem : t ∈ e.tokens) :
    ¬ e.Stands t (out.drop n) := by
  induction scans generalizing n with
  | done => simpa using not_stands_nil mem
  | @decoded u rest out takes further ih =>
    cases n with
    | zero => exact not_stands_of_plain mem (e.marked u takes.mem)
    | succ n => exact ih n
  | @copied c rest out none further ih =>
    cases n with
    | succ n => exact ih n
    | zero =>
      rintro ⟨out', same, continues⟩
      obtain ⟨rest', same', further'⟩ :=
        (Scans.copied none further).letters (e.spelled t mem) same
      exact none t mem ⟨rest', same', further'.continues continues⟩

lemma scans_self (nowhere : ∀ n, ∀ t ∈ e.tokens, ¬ e.Stands t (text.drop n)) :
    e.Scans text text := by
  induction text with
  | nil => exact .done
  | cons c rest ih => exact .copied (nowhere 0) (ih fun n => nowhere (n + 1))

lemma Scans.again (scans : e.Scans text out) : e.Scans out out :=
  scans_self fun n _ mem => scans.not_stands n mem

end

/-! ## Decoding with a table -/

variable [DecidableEq α]

/-- For every tail of a text, whether a token may end where it begins. -/
def flags : List α → List Bool
  | [] => [true]
  | c :: rest =>
    let after := flags rest
    let continues := e.tokens.any fun t =>
      t.letters.isPrefixOf (c :: rest) && after.getD (t.letters.length - 1) false
    (!e.isLetter c || continues) :: after

def tokenAt? (text : List α) (flags : List Bool) : Option (Sign α) :=
  e.tokens.find? fun t => t.letters.isPrefixOf text && flags.getD t.letters.length false

def decodeFrom : Nat → List α → List Bool → List α
  | _, [], _ => []
  | skip + 1, _ :: rest, flags => decodeFrom skip rest flags.tail
  | 0, c :: rest, flags =>
    match e.tokenAt? (c :: rest) flags with
    | some t => t.mark :: decodeFrom (t.letters.length - 1) rest flags.tail
    | none => c :: decodeFrom 0 rest flags.tail

def decode (text : List α) : List α := e.decodeFrom 0 text (e.flags text)

/-- Whether a token may end where the text begins. -/
def mayContinue (text : List α) : Bool := (e.flags text).headD false

/-- Whether a token may be decoded in front of the text. -/
def mayStand (t : Sign α) (text : List α) : Bool :=
  t.letters.isPrefixOf text && e.mayContinue (text.drop t.letters.length)

variable {e} {t : Sign α} {text rest out : List α} {c : α}

lemma flags_getElem? (text : List α) (n : Nat) :
    (e.flags text)[n]? = if n ≤ text.length then some (e.mayContinue (text.drop n)) else none := by
  induction text generalizing n with
  | nil => cases n <;> simp [flags, mayContinue]
  | cons c rest ih =>
    cases n with
    | zero => simp [flags, mayContinue]
    | succ n => simpa [flags] using ih n

lemma flags_getD {n : Nat} (inside : n ≤ text.length) :
    (e.flags text).getD n false = e.mayContinue (text.drop n) := by
  rw [List.getD_eq_getElem?_getD, flags_getElem?, if_pos inside, Option.getD_some]

lemma tokenAt?_flags (text : List α) :
    e.tokenAt? text (e.flags text) = e.tokens.find? (e.mayStand · text) := by
  rw [tokenAt?]
  congr 1
  funext t
  rw [mayStand]
  by_cases front : t.letters.isPrefixOf text = true
  · rw [flags_getD (List.isPrefixOf_iff_prefix.1 front).length_le]
  · simp [front]

lemma mayContinue_cons (c : α) (rest : List α) :
    e.mayContinue (c :: rest) = (!e.isLetter c || e.tokens.any (e.mayStand · (c :: rest))) := by
  have same : (e.tokens.any fun t => t.letters.isPrefixOf (c :: rest) &&
      (e.flags rest).getD (t.letters.length - 1) false) =
        e.tokens.any (e.mayStand · (c :: rest)) := by
    rw [Bool.eq_iff_iff, List.any_eq_true, List.any_eq_true]
    refine exists_congr fun t => and_congr_right fun mem => ?_
    rw [mayStand]
    by_cases front : t.letters.isPrefixOf (c :: rest) = true
    · have shorter := (List.isPrefixOf_iff_prefix.1 front).length_le
      have some := List.length_pos_iff.2 (e.nonempty t mem)
      obtain ⟨n, length⟩ := Nat.exists_eq_add_one.2 some
      rw [length, List.length_cons] at shorter
      rw [length, Nat.add_sub_cancel, List.drop_succ_cons, flags_getD (by omega)]
    · simp [front]
  rw [← same]
  rfl

/-- The table tells where a text goes on as it has to. -/
lemma mayContinue_iff (text : List α) : e.mayContinue text = true ↔ e.Continues text := by
  constructor
  · -- the text behind a token that stands in front is shorter
    induction length : text.length using Nat.strongRecOn generalizing text with
    | ind n ih =>
      intro flag
      cases text with
      | nil => exact continues_of_end (by simp)
      | cons c rest =>
        rw [mayContinue_cons, Bool.or_eq_true, List.any_eq_true] at flag
        rcases flag with plain | ⟨t, mem, stands⟩
        · exact continues_of_end (by simpa using plain)
        · rw [mayStand, Bool.and_eq_true, List.isPrefixOf_iff_prefix] at stands
          obtain ⟨⟨behind, parts⟩, flag⟩ := stands
          rw [← parts, List.drop_left] at flag
          have some := List.length_pos_iff.2 (e.nonempty t mem)
          have whole := congrArg List.length parts
          rw [List.length_append, length] at whole
          rw [← parts]
          exact (ih behind.length (by omega) behind rfl flag).cons mem
  · rintro ⟨run, rest, tokens, rfl, ends⟩
    induction run with
    | nil =>
      cases rest with
      | nil => rfl
      | cons c rest =>
        have plain : e.isLetter c = false := ends c rfl
        simp [mayContinue_cons, plain]
    | cons t run ih =>
      have flag := ih fun u mem => tokens u (.tail _ mem)
      have mem := tokens t List.mem_cons_self
      rw [List.flatMap_cons, List.append_assoc]
      cases letters : t.letters with
      | nil => exact absurd letters (e.nonempty t mem)
      | cons c letters' =>
        rw [List.cons_append, mayContinue_cons, Bool.or_eq_true, List.any_eq_true]
        refine .inr ⟨t, mem, ?_⟩
        rw [← List.cons_append, ← letters, mayStand, List.drop_left, flag, Bool.and_true,
          List.isPrefixOf_iff_prefix]
        exact List.prefix_append _ _

lemma mayStand_iff : e.mayStand t text = true ↔ e.Stands t text := by
  rw [mayStand, Bool.and_eq_true, List.isPrefixOf_iff_prefix, mayContinue_iff]
  constructor
  · rintro ⟨⟨rest, rfl⟩, continues⟩
    exact ⟨rest, rfl, by rwa [List.drop_left] at continues⟩
  · rintro ⟨rest, rfl, continues⟩
    exact ⟨List.prefix_append _ _, by rwa [List.drop_left]⟩

lemma tokenAt?_eq_some_iff : e.tokenAt? text (e.flags text) = some t ↔ e.Takes t text := by
  rw [tokenAt?_flags, List.find?_eq_some_iff_append, mayStand_iff, Takes]
  simp [mayStand_iff, ← Bool.not_eq_true]

lemma tokenAt?_eq_none_iff :
    e.tokenAt? text (e.flags text) = none ↔ ∀ t ∈ e.tokens, ¬ e.Stands t text := by
  rw [tokenAt?_flags, List.find?_eq_none]
  simp only [mayStand_iff]

lemma decodeFrom_drop (skip : Nat) (text : List α) :
    e.decodeFrom skip text (e.flags text) = e.decode (text.drop skip) := by
  induction skip generalizing text with
  | zero => rfl
  | succ skip ih =>
    cases text with
    | nil => rfl
    | cons c rest => exact ih rest

lemma decode_of_takes (takes : e.Takes t (t.letters ++ rest)) :
    e.decode (t.letters ++ rest) = t.mark :: e.decode rest := by
  cases letters : t.letters with
  | nil => exact absurd letters (e.nonempty t takes.mem)
  | cons c letters' =>
    have found := tokenAt?_eq_some_iff.2 takes
    rw [letters, List.cons_append] at found
    rw [List.cons_append, decode, decodeFrom, found]
    refine congrArg (t.mark :: ·) ((decodeFrom_drop _ _).trans ?_)
    rw [letters, List.length_cons, Nat.add_sub_cancel, List.drop_left]

lemma decode_of_none (none : ∀ t ∈ e.tokens, ¬ e.Stands t (c :: rest)) :
    e.decode (c :: rest) = c :: e.decode rest := by
  rw [decode, decodeFrom, tokenAt?_eq_none_iff.2 none]
  exact congrArg (c :: ·) (decodeFrom_drop 0 rest)

lemma scans_decode (text : List α) : e.Scans text (e.decode text) := by
  induction length : text.length using Nat.strongRecOn generalizing text with
  | ind n ih =>
    cases text with
    | nil => exact .done
    | cons c rest =>
      cases found : e.tokenAt? (c :: rest) (e.flags (c :: rest)) with
      | none =>
        have none := tokenAt?_eq_none_iff.1 found
        rw [decode_of_none none]
        rw [List.length_cons] at length
        exact .copied none (ih rest.length (by omega) rest rfl)
      | some t =>
        have takes := tokenAt?_eq_some_iff.1 found
        obtain ⟨behind, parts, _⟩ := takes.1
        have some := List.length_pos_iff.2 (e.nonempty t takes.mem)
        have whole := congrArg List.length parts
        rw [List.length_append, length] at whole
        rw [parts] at takes ⊢
        rw [decode_of_takes takes]
        exact .decoded takes (ih behind.length (by omega) behind rfl)

/-- Decoding with the table is the scan. -/
lemma scans_iff : e.Scans text out ↔ e.decode text = out := by
  constructor
  · intro scans
    induction scans with
    | done => rfl
    | decoded takes _ ih => rw [decode_of_takes takes, ih]
    | copied none _ ih => rw [decode_of_none none, ih]
  · rintro rfl
    exact scans_decode text

/-- The table has an entry for every tail, which tells whether it goes on as it has to. -/
lemma flags_getElem?_eq_some_iff (text : List α) (n : Nat) (flag : Bool) :
    (e.flags text)[n]? = some flag ↔
      n ≤ text.length ∧ (flag = true ↔ e.Continues (text.drop n)) := by
  rw [flags_getElem?, ← mayContinue_iff]
  by_cases inside : n ≤ text.length
  · rw [if_pos inside, Option.some_inj, and_iff_right inside, ← Bool.eq_iff_iff, eq_comm]
  · simp [inside]

end Encoding

/-! ## Type identifiers -/

/-- The encoding of type identifiers. -/
def characters : Encoding Char where
  tokens := tokens.map fun t => ⟨t.letters, t.mark⟩
  isLetter := isTokenChar
  nonempty := by decide
  spelled := by simp [tokens, isTokenChar]
  marked := by decide

lemma flags_characters (text : List Char) : characters.flags text = continuations text := by
  induction text with
  | nil => rfl
  | cons c rest ih =>
    rw [Encoding.flags, ih]
    rfl

lemma decodeFrom_characters (skip : Nat) (text : List Char) (flags : List Bool) :
    characters.decodeFrom skip text flags = TypeId.decodeFrom skip text flags := by
  induction text generalizing skip flags with
  | nil => cases skip <;> rfl
  | cons c rest ih =>
    cases skip with
    | succ skip => exact ih skip flags.tail
    | zero =>
      have found : characters.tokenAt? (c :: rest) flags =
          (TypeId.tokenAt? (c :: rest) flags).map fun t => ⟨t.letters, t.mark⟩ :=
        List.find?_map
      rw [Encoding.decodeFrom, TypeId.decodeFrom, found]
      cases TypeId.tokenAt? (c :: rest) flags with
      | none => exact congrArg (c :: ·) (ih 0 flags.tail)
      | some t => exact congrArg (t.mark :: ·) (ih _ flags.tail)

lemma decode_characters (text : List Char) : characters.decode text = decodeChars text := by
  rw [Encoding.decode, flags_characters, decodeFrom_characters, decodeChars]

lemma toList_decode (s : String) : (decode s).toList = decodeChars s.toList :=
  String.toList_ofList

/-- What is decoded stays as it is when it is decoded again: no token in it may be decoded. -/
theorem decoded_stays (s : String) :
    decode (decode s) = decode s ∧
      ∀ t ∈ tokens, ∀ before after, (decode s).toList = before ++ t.letters ++ after →
        ¬ characters.Continues after := by
  have scans : characters.Scans s.toList (decode s).toList :=
    Encoding.scans_iff.2 (by rw [decode_characters, toList_decode])
  constructor
  · have again := Encoding.scans_iff.1 scans.again
    rw [decode_characters, toList_decode] at again
    rw [decode, toList_decode, again, ← decode]
  · intro t mem before after parts continues
    have stands : characters.Stands ⟨t.letters, t.mark⟩ ((decode s).toList.drop before.length) := by
      rw [parts, List.append_assoc, List.drop_left]
      exact ⟨after, rfl, continues⟩
    exact scans.not_stands _ (List.mem_map_of_mem mem) stands

end UpgradeSafety.TypeId
