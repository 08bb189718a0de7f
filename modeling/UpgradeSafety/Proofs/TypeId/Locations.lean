import UpgradeSafety.Proofs.TypeId.Trees

/-!
# Unifying storage locations

Storage pointers are written as storage references throughout a decoded text. No
bracket or comma belongs to a location, so the parts of a type tree are unified
one by one; a name that spells out a location is changed along with the rest.
-/

namespace UpgradeSafety

namespace TypeId

/-! ## Replacing a pattern -/

section Replacing
variable {pattern replacement : List Char}

lemma replaceFrom_drop (skip : Nat) (text : List Char) :
    replaceFrom pattern replacement skip text =
      replaceFrom pattern replacement 0 (text.drop skip) := by
  induction skip generalizing text with
  | zero => rfl
  | succ skip ih =>
    cases text with
    | nil => rfl
    | cons c rest => exact ih rest

lemma replaceFrom_hit (nonempty : pattern ≠ []) {text : List Char}
    (h : pattern <+: text) : replaceFrom pattern replacement 0 text =
      replacement ++ replaceFrom pattern replacement 0 (text.drop pattern.length) := by
  cases text with
  | nil => exact absurd (List.prefix_nil.1 h) nonempty
  | cons c rest =>
    have hpos := List.length_pos_iff.2 nonempty
    rw [replaceFrom, if_pos (List.isPrefixOf_iff_prefix.2 h), replaceFrom_drop, drop_letters hpos]

lemma replaceFrom_miss {c : Char} {rest : List Char} (h : ¬ pattern <+: c :: rest) :
    replaceFrom pattern replacement 0 (c :: rest) =
      c :: replaceFrom pattern replacement 0 rest := by
  rw [replaceFrom, if_neg (fun hp => h (List.isPrefixOf_iff_prefix.1 hp))]

/-- A prefix ends before the first character that it does not hold. -/
lemma prefix_before_break {b : Char} {w rest : List Char} (hb : b ∉ pattern)
    (h : pattern <+: w ++ b :: rest) : pattern <+: w := by
  by_cases hl : pattern.length ≤ w.length
  · exact List.prefix_of_prefix_length_le h (List.prefix_append w _) hl
  · have whole : w ++ [b] <+: w ++ b :: rest := ⟨rest, by simp⟩
    have longer : w ++ [b] <+: pattern := by
      refine List.prefix_of_prefix_length_le whole h ?_
      simp only [List.length_append, List.length_singleton]
      omega
    exact absurd (longer.subset (by simp)) hb

lemma replaceFrom_break (nonempty : pattern ≠ []) {b : Char} (hb : b ∉ pattern)
    (w rest : List Char) : replaceFrom pattern replacement 0 (w ++ b :: rest) =
      replaceFrom pattern replacement 0 w ++ b :: replaceFrom pattern replacement 0 rest := by
  induction hn : w.length using Nat.strongRecOn generalizing w with
  | ind n ih =>
    subst hn
    by_cases h : pattern <+: w
    · have hl := h.length_le
      have hpos := List.length_pos_iff.2 nonempty
      have before : pattern <+: w ++ b :: rest := h.trans (List.prefix_append w _)
      have shorter : (w.drop pattern.length).length < w.length := by
        rw [List.length_drop]
        omega
      rw [replaceFrom_hit nonempty before, replaceFrom_hit nonempty h,
        List.drop_append_of_le_length hl, ih _ shorter _ rfl, List.append_assoc]
    · have not : ¬ pattern <+: w ++ b :: rest := fun hp => h (prefix_before_break hb hp)
      cases w with
      | nil => exact replaceFrom_miss not
      | cons c w =>
        rw [List.cons_append] at not ⊢
        rw [replaceFrom_miss not, replaceFrom_miss h,
          ih w.length (by simp) w rfl]
        rfl

end Replacing

/-! ## Unifying the storage locations -/

/-- Writes every storage pointer as a storage reference. -/
def unifyLocations (text : List Char) : List Char :=
  replaceFrom "_storage_ptr".toList "_storage".toList 0 text

/-- A text that does not go on with a character of a storage location. -/
def Breaks (text : List Char) : Prop := ∀ b ∈ text.head?, b ∉ "_storage_ptr".toList

lemma unifyLocations_break {b : Char} (hb : b ∉ "_storage_ptr".toList) (w rest : List Char) :
    unifyLocations (w ++ b :: rest) = unifyLocations w ++ b :: unifyLocations rest :=
  replaceFrom_break (by decide) hb w rest

lemma unifyLocations_append {w rest : List Char} (h : Breaks rest) :
    unifyLocations (w ++ rest) = unifyLocations w ++ unifyLocations rest := by
  cases rest with
  | nil => simp [unifyLocations, replaceFrom]
  | cons b rest =>
    have hb := h b rfl
    rw [unifyLocations_break hb, ← List.nil_append (b :: rest), unifyLocations_break hb]
    rfl

lemma unifyLocations_cons {c : Char} (hc : c ≠ '_') (rest : List Char) :
    unifyLocations (c :: rest) = c :: unifyLocations rest := by
  refine replaceFrom_miss fun h => hc ?_
  exact (List.cons_prefix_cons.1 h).1.symm

lemma unifyLocations_undashed {w : List Char} (h : '_' ∉ w) (rest : List Char) :
    unifyLocations (w ++ rest) = w ++ unifyLocations rest := by
  induction w with
  | nil => rfl
  | cons c w ih =>
    simp only [List.mem_cons, not_or] at h
    rw [List.cons_append, unifyLocations_cons (Ne.symm h.1), ih h.2]
    rfl

lemma unifyLocations_word {w : List Char} (word : ∀ c ∈ w, isWordChar c = true) :
    ∀ c ∈ unifyLocations w, isWordChar c = true := by
  induction hn : w.length using Nat.strongRecOn generalizing w with
  | ind n ih =>
    subst hn
    by_cases h : "_storage_ptr".toList <+: w
    · have shorter : (w.drop "_storage_ptr".toList.length).length < w.length := by
        have := h.length_le
        have : "_storage_ptr".toList.length = 12 := by decide
        rw [List.length_drop]
        omega
      intro c hc
      rw [unifyLocations, replaceFrom_hit (by decide) h] at hc
      rcases List.mem_append.1 hc with hc | hc
      · exact locationText_word false c hc
      · exact ih _ shorter (fun d hd => word d (List.mem_of_mem_drop hd)) rfl c hc
    · cases w with
      | nil => simp [unifyLocations, replaceFrom]
      | cons d w =>
        intro c hc
        rw [unifyLocations, replaceFrom_miss h] at hc
        rcases List.mem_cons.1 hc with rfl | hc
        · exact word c List.mem_cons_self
        · exact ih w.length (by simp) (fun e he => word e (List.mem_cons_of_mem d he)) rfl c hc

lemma unifyLocations_locationText (pointer : Bool) :
    unifyLocations (locationText pointer) = "_storage".toList := by
  cases pointer <;> decide

end TypeId

namespace Spelling

/-- As decoding leaves it, with its storage locations unified. -/
@[simps]
def normalized : Spelling where
  opening := ['(']
  comma := [',']
  closing := [')']
  elementary := TypeId.unifyLocations
  declared kind name node _ :=
    kind.head ++ name.opening ++ TypeId.unifyLocations name.letters ++
      ')' :: Numeral.digits node ++ kind.locationText false
  location _ := UpgradeSafety.locationText false

end Spelling

namespace TypeId

lemma breaks_mark {b : Char} (hb : b ∉ "_storage_ptr".toList) (rest : List Char) :
    Breaks (b :: rest) := by
  rintro c hc
  cases hc
  exact hb

lemma unifyLocations_name (name : DeclaredName) (rest : List Char) :
    unifyLocations (name.opening ++ name.letters ++ ')' :: rest) =
      name.opening ++ unifyLocations name.letters ++ ')' :: unifyLocations rest := by
  have named := unifyLocations_break (b := ')') (by decide) name.letters rest
  cases hn : name.isHidden with
  | false =>
    simp only [DeclaredName.opening, hn, Bool.false_eq_true, if_false, List.cons_append,
      List.nil_append]
    rw [unifyLocations_cons (by decide), named]
  | true =>
    obtain ⟨c, w, hw⟩ := List.exists_cons_of_ne_nil name.nonempty
    have hc : c = '_' := by simpa [DeclaredName.isHidden, hw] using hn
    -- Two underscores in a row begin no location.
    have second : unifyLocations ('_' :: (name.letters ++ ')' :: rest)) =
        '_' :: unifyLocations (name.letters ++ ')' :: rest) := by
      refine replaceFrom_miss fun hp => ?_
      rw [hw, hc] at hp
      have tail := (List.cons_prefix_cons.1 hp).2
      exact absurd (List.cons_prefix_cons.1 tail).1 (by decide)
    simp only [DeclaredName.opening, hn, if_true, List.cons_append, List.nil_append]
    rw [unifyLocations_cons (by decide), second, named]

lemma unifyLocations_declared (kind : DeclarationKind) (name : DeclaredName) (node : Nat)
    (pointer : Bool) {rest : List Char} (h : Breaks rest) :
    unifyLocations (Spelling.decoded.declared kind name node pointer ++ rest) =
      Spelling.normalized.declared kind name node pointer ++ unifyLocations rest := by
  have opens : Breaks (name.opening ++ name.letters ++ ')' ::
      (Numeral.digits node ++ (kind.locationText pointer ++ rest))) := by
    cases hn : name.isHidden <;> simp only [DeclaredName.opening, hn] <;>
      exact breaks_mark (by decide) _
  have head : unifyLocations kind.head = kind.head := by cases kind <;> decide
  have undashed : '_' ∉ Numeral.digits node := fun hc => by
    simpa using digits_word node '_' hc
  have location : unifyLocations (kind.locationText pointer) = kind.locationText false := by
    simp only [DeclarationKind.locationText]
    split
    · exact unifyLocations_locationText pointer
    · rfl
  have named := unifyLocations_name name
    (Numeral.digits node ++ (kind.locationText pointer ++ rest))
  have whole := unifyLocations_append (w := kind.head) opens
  simp only [List.append_assoc] at named whole
  simp only [Spelling.decoded_declared, Spelling.normalized_declared, List.append_assoc,
    List.cons_append]
  rw [whole, head, named, unifyLocations_undashed undashed, unifyLocations_append h, location]

lemma unifyLocations_write (t : TypeTree) (rest : List Char) (h : Breaks rest) :
    unifyLocations (t.write .decoded ++ rest) = t.write .normalized ++ unifyLocations rest := by
  induction t generalizing rest with
  | elementary id =>
    simp only [TypeTree.write, Spelling.decoded_elementary, Spelling.normalized_elementary]
    exact unifyLocations_append h
  | declared kind name node pointer =>
    simp only [TypeTree.write]
    exact unifyLocations_declared kind name node pointer h
  | mapping key value ihk ihv =>
    have word : unifyLocations mappingWord = mappingWord := by decide
    simp only [TypeTree.write, Spelling.decoded_opening, Spelling.decoded_comma,
      Spelling.decoded_closing, Spelling.normalized_opening, Spelling.normalized_comma,
      Spelling.normalized_closing, List.append_assoc, List.cons_append, List.nil_append]
    rw [unifyLocations_break (by decide), word, ihk _ (breaks_mark (by decide) _),
      unifyLocations_cons (by decide), ihv _ (breaks_mark (by decide) _),
      unifyLocations_cons (by decide)]
  | array element length pointer ih =>
    have word : unifyLocations arrayWord = arrayWord := by decide
    have undashed : '_' ∉ length.text := by
      cases length with
      | fixed n => exact fun hc => by simpa using digits_word n '_' hc
      | dynamic => decide
    simp only [TypeTree.write, Spelling.decoded_opening, Spelling.decoded_closing,
      Spelling.decoded_location, Spelling.normalized_opening, Spelling.normalized_closing,
      Spelling.normalized_location, List.append_assoc, List.cons_append, List.nil_append]
    rw [unifyLocations_break (by decide), word, ih _ (breaks_mark (by decide) _),
      unifyLocations_cons (by decide), unifyLocations_undashed undashed, unifyLocations_append h,
      unifyLocations_locationText]
    rfl

/-- The decoded and unified text of an encoded tree. -/
lemma normalizeChars_write (t : TypeTree) (keys : t.KeysPlain) :
    normalizeChars (t.write .encoded) = t.write .normalized := by
  have decoded := decodeChars_write t keys [] (by simp) (fun _ => .nil)
  have unified := unifyLocations_write t [] (by simp [Breaks])
  simp only [List.append_nil, decodeChars_nil] at decoded unified
  have none : unifyLocations [] = [] := rfl
  rw [none, List.append_nil] at unified
  rw [normalizeChars, decoded]
  exact unified

end TypeId

end UpgradeSafety
