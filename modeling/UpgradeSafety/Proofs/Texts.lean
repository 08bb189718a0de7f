import Mathlib.Data.List.Basic
import UpgradeSafety.Numeral
import UpgradeSafety.Text.Split

/-!
# Numbers and pieces of texts

The texts that are read as a number are decimal digits with or without a plus sign in front, for a
number below the bound. A text is cut at each separator, into pieces without one.
-/

namespace UpgradeSafety

/-! ## Spelled numbers -/

namespace Numeral

variable {bound n : Nat} {text : List Char}

/-- Decimal digits for a number, behind a plus sign or without one. -/
def Spells (bound : Nat) (text : List Char) (n : Nat) : Prop :=
  ∃ digits, (text = digits ∨ text = '+' :: digits) ∧ digits ≠ [] ∧
    (∀ c ∈ digits, c.isDigit = true) ∧ Nat.ofDigitChars 10 digits 0 = n ∧ n < bound

lemma ofDigits?_eq_some_iff : ofDigits? bound text = some n ↔
    text ≠ [] ∧ (∀ c ∈ text, c.isDigit = true) ∧ Nat.ofDigitChars 10 text 0 = n ∧ n < bound := by
  rw [ofDigits?]
  simp only [List.all_eq_true, Option.ite_none_right_eq_some, Option.some.injEq]
  constructor
  · rintro ⟨⟨nonempty, digits, small⟩, rfl⟩
    exact ⟨nonempty, digits, rfl, small⟩
  · rintro ⟨nonempty, digits, rfl, small⟩
    exact ⟨⟨nonempty, digits, small⟩, rfl⟩

lemma read?_eq_some_iff : read? bound text = some n ↔ Spells bound text n := by
  have plus : '+'.isDigit = false := by decide
  unfold read?
  split
  · next digits =>
    rw [ofDigits?_eq_some_iff]
    constructor
    · exact fun h => ⟨digits, .inr rfl, h⟩
    · rintro ⟨digits', rfl | same, h⟩
      · exact absurd (h.2.1 '+' List.mem_cons_self) (by rw [plus]; decide)
      · cases same
        exact h
  · next unsigned =>
    rw [ofDigits?_eq_some_iff]
    constructor
    · exact fun h => ⟨_, .inl rfl, h⟩
    · rintro ⟨digits, rfl | rfl, h⟩
      · exact h
      · exact absurd rfl (unsigned digits)

/-- A number holds no mark other than the plus sign. -/
lemma Spells.not_mem {mark : Char} (h : Spells bound text n) (other : mark.isDigit = false)
    (unsigned : mark ≠ '+') : mark ∉ text := by
  obtain ⟨digits, spelled, _, all, _⟩ := h
  have inside : mark ∉ digits := by
    intro mem
    rw [all mark mem] at other
    cases other
  rcases spelled with rfl | rfl
  · exact inside
  · exact List.not_mem_cons_of_ne_of_not_mem unsigned inside

end Numeral

/-! ## Cutting texts at a separator -/

namespace Text

/-- The pieces of a text that is cut at each separator. -/
inductive Cuts (separator : Char) : List Char → List (List Char) → Prop where
  | last {piece : List Char} (clean : separator ∉ piece) : Cuts separator piece [piece]
  | next {piece rest : List Char} {pieces : List (List Char)} (clean : separator ∉ piece)
      (cuts : Cuts separator rest pieces) :
      Cuts separator (piece ++ separator :: rest) (piece :: pieces)

lemma cuts_splitOn (separator : Char) (text : List Char) :
    Cuts separator text (splitOn separator text) := by
  induction text with
  | nil => exact .last List.not_mem_nil
  | cons c rest ih =>
    rw [splitOn]
    split
    · next same =>
      subst same
      exact .next List.not_mem_nil ih
    · next other =>
      -- the character joins the first piece of the others
      have joins {piece : List Char} (clean : separator ∉ piece) : separator ∉ c :: piece :=
        List.not_mem_cons_of_ne_of_not_mem (Ne.symm other) clean
      generalize splitOn separator rest = pieces at ih
      cases ih with
      | last clean => exact .last (joins clean)
      | next clean cuts => exact .next (joins clean) cuts

lemma Cuts.splitOn_eq {separator : Char} {text : List Char} {pieces : List (List Char)}
    (cuts : Cuts separator text pieces) : splitOn separator text = pieces := by
  induction cuts with
  | @last piece clean =>
    induction piece with
    | nil => rfl
    | cons c piece ih =>
      rw [List.mem_cons, not_or] at clean
      rw [splitOn, if_neg (Ne.symm clean.1), ih clean.2]
  | @next piece rest pieces clean _ ih =>
    induction piece with
    | nil => rw [List.nil_append, splitOn, if_pos rfl, ih]
    | cons c piece ih =>
      rw [List.mem_cons, not_or] at clean
      rw [List.cons_append, splitOn, if_neg (Ne.symm clean.1), ih clean.2]

end Text

end UpgradeSafety
