import Mathlib.Tactic.IntervalCases
import Mathlib.Tactic.Lemma
import UpgradeSafety.Json.Reader
import UpgradeSafety.Json.Writer

/-!
# Reading the tokens of a written document

Every string and every integer in range is read back from its characters,
whatever follows, and space between the tokens is passed over.
-/

namespace UpgradeSafety

namespace Json

/-! ## Space and the ends of numbers -/

/-- Only space is put between the tokens. -/
structure Style.Blank (style : Style) : Prop where
  lineBreak : ∀ depth, ∀ c ∈ style.lineBreak depth, isSpace c = true
  afterColon : ∀ c ∈ style.afterColon, isSpace c = true

lemma compact_blank : compact.Blank := ⟨fun _ _ => nofun, nofun⟩

lemma pretty_blank : pretty.Blank := by
  refine ⟨fun depth c member => ?_, fun c member => ?_⟩
  · rcases List.mem_cons.1 member with rfl | member
    · rfl
    · rw [List.eq_of_mem_replicate member]
      rfl
  · rw [List.mem_singleton.1 member]
    rfl

lemma skipSpace_blank {blank : List Char} (h : ∀ c ∈ blank, isSpace c = true) (s : List Char) :
    skipSpace (blank ++ s) = skipSpace s := List.dropWhile_append_of_pos h

lemma skipSpace_cons {c : Char} (h : isSpace c = false) (s : List Char) :
    skipSpace (c :: s) = c :: s := List.dropWhile_cons_of_neg (by simp [h])

/-- What comes next does not go on with a number. -/
def EndsNumber (s : List Char) : Prop :=
  ∀ c ∈ s.head?, c.isDigit = false ∧ c ≠ '.' ∧ c ≠ 'e' ∧ c ≠ 'E'

lemma endsNumber_nil : EndsNumber [] := nofun

lemma endsNumber_cons {c : Char} (digit : c.isDigit = false) (point : c ≠ '.') (e : c ≠ 'e')
    (E : c ≠ 'E') (s : List Char) : EndsNumber (c :: s) := by
  intro d first
  obtain rfl := Option.some.inj first
  exact ⟨digit, point, e, E⟩

lemma endsNumber_of_space {c : Char} (h : isSpace c = true) (s : List Char) :
    EndsNumber (c :: s) := by
  simp only [isSpace, Bool.or_eq_true, decide_eq_true_eq] at h
  rcases h with ((rfl | rfl) | rfl) | rfl <;>
    exact endsNumber_cons rfl (by decide) (by decide) (by decide) s

lemma endsNumber_blank {blank s : List Char} (h : ∀ c ∈ blank, isSpace c = true)
    (ends : EndsNumber s) : EndsNumber (blank ++ s) := by
  cases blank with
  | nil => exact ends
  | cons c blank => exact endsNumber_of_space (h c List.mem_cons_self) _

/-- A reader takes exactly this text for a value, whatever follows. -/
def Takes {α : Type} (read : Reader α) (text : List Char) (a : α) : Prop :=
  ∀ rest, EndsNumber rest → read (text ++ rest) = some (a, rest)

/-! ## Strings -/

lemma hexValue?_hexDigit : ∀ n < 16, hexValue? (hexDigit n) = some n := by decide

/-- A character is read back from the way it is written. -/
lemma stringChar_escape (c : Char) (rest : List Char) :
    stringChar (escape c ++ rest) = some (some c, rest) := by
  unfold escape
  split
  · next h => subst h; rfl
  split
  · next h => subst h; rfl
  split
  · next h => subst h; rfl
  split
  · next h => subst h; rfl
  split
  · next h => subst h; rfl
  split
  · next h => subst h; rfl
  split
  · next h => subst h; rfl
  split
  · next control =>
    have high := hexValue?_hexDigit (c.toNat / 16) (by omega)
    have low := hexValue?_hexDigit (c.toNat % 16) (by omega)
    have zero : hexValue? '0' = some 0 := rfl
    have value : c.toNat / 16 * 16 + c.toNat % 16 = c.toNat := by omega
    have unit : codeUnit ('0' :: '0' :: hexDigit (c.toNat / 16) :: hexDigit (c.toNat % 16) ::
        rest) = some (c.toNat, rest) := by
      simp [codeUnit, zero, high, low, value]
    have notHigh : isHighSurrogate c.toNat = false := by simp [isHighSurrogate]; omega
    have notLow : isLowSurrogate c.toNat = false := by simp [isLowSurrogate]; omega
    change escapedCodePoint _ = _
    simp [escapedCodePoint, unit, notHigh, notLow]
  · next backslash _ _ _ _ _ control =>
    rw [List.singleton_append, stringChar.eq_def]
    simp_all

lemma escape_head (c : Char) : ∃ first others, escape c = first :: others ∧ first ≠ '"' := by
  unfold escape
  split
  · exact ⟨_, _, rfl, by decide⟩
  split
  · exact ⟨_, _, rfl, by decide⟩
  split
  · exact ⟨_, _, rfl, by decide⟩
  split
  · exact ⟨_, _, rfl, by decide⟩
  split
  · exact ⟨_, _, rfl, by decide⟩
  split
  · exact ⟨_, _, rfl, by decide⟩
  split
  · exact ⟨_, _, rfl, by decide⟩
  split
  · exact ⟨_, _, rfl, by decide⟩
  · next quote _ _ _ _ _ _ _ => exact ⟨c, [], rfl, quote⟩

lemma stringBody_cons {fuel : Nat} {c : Char} (h : c ≠ '"') (s : List Char) :
    stringBody (fuel + 1) (c :: s) = (stringChar (c :: s)).bind fun (first, rest) =>
      (stringBody fuel rest).bind fun (body, rest) => some (first :: body, rest) := by
  rw [stringBody.eq_def]
  simp_all

lemma stringBody_escaped (text : List Char) {fuel : Nat} (enough : text.length < fuel)
    (rest : List Char) :
    stringBody fuel (text.flatMap escape ++ '"' :: rest) = some (text.map some, rest) := by
  induction text generalizing fuel with
  | nil =>
    obtain ⟨fuel, rfl⟩ := Nat.exists_eq_succ_of_ne_zero (Nat.ne_of_gt enough)
    rfl
  | cons c text ih =>
    obtain ⟨fuel, rfl⟩ := Nat.exists_eq_succ_of_ne_zero (Nat.ne_of_gt (Nat.zero_lt_of_lt enough))
    obtain ⟨first, others, parts, notQuote⟩ := escape_head c
    have start : (c :: text).flatMap escape ++ '"' :: rest =
        escape c ++ (text.flatMap escape ++ '"' :: rest) := by simp
    rw [start, parts, List.cons_append, stringBody_cons notQuote, ← List.cons_append, ← parts,
      stringChar_escape, Option.bind_some]
    have body := ih (Nat.lt_of_succ_lt_succ enough)
    simp [body]

lemma text?_some (text : String) : text? (text.toList.map some) = some text := by
  have each : (text.toList.map some).mapM id = some text.toList := by
    induction text.toList with
    | nil => rfl
    | cons c rest ih => simp [ih]
  rw [text?, each, Option.map_some, String.ofList_toList]

/-! ## Numbers -/

lemma ne_of_isDigit {c d : Char} (digit : c.isDigit = true) (other : d.isDigit = false) :
    c ≠ d := by
  rintro rfl
  exact Bool.false_ne_true (other.symm.trans digit)

lemma isSpace_of_isDigit {c : Char} (digit : c.isDigit = true) : isSpace c = false := by
  simp only [isSpace, Bool.or_eq_false_iff, decide_eq_false_iff_not]
  exact ⟨⟨⟨ne_of_isDigit digit rfl, ne_of_isDigit digit rfl⟩, ne_of_isDigit digit rfl⟩,
    ne_of_isDigit digit rfl⟩

lemma toDigits_cons (n : Nat) :
    ∃ c others, Nat.toDigits 10 n = c :: others ∧ c.isDigit = true := by
  cases digits : Nat.toDigits 10 n with
  | nil => exact absurd digits Nat.toDigits_ne_nil
  | cons c others =>
    exact ⟨c, others, rfl,
      Nat.isDigit_of_mem_toDigits (by decide) (by decide) (digits ▸ List.mem_cons_self)⟩

lemma toDigits_head {n : Nat} (positive : 0 < n) : (Nat.toDigits 10 n).head? ≠ some '0' := by
  induction n using Nat.strongRecOn with
  | _ n ih =>
    by_cases small : n < 10
    · rw [Nat.toDigits_of_lt_base small]
      interval_cases n <;> decide
    · have front := ih (n / 10) (by omega) (by omega)
      obtain ⟨c, others, digits, -⟩ := toDigits_cons (n / 10)
      rw [Nat.toDigits_of_base_le (by decide) (by omega)]
      simpa [digits] using front

lemma integerChars_cons (n : Int) :
    ∃ c others, integerChars n = c :: others ∧ (c = '-' ∨ c.isDigit = true) := by
  cases n with
  | ofNat n =>
    obtain ⟨c, others, digits, isDigit⟩ := toDigits_cons n
    exact ⟨c, others, digits, .inr isDigit⟩
  | negSucc n => exact ⟨'-', _, rfl, .inl rfl⟩

lemma digits1_toDigits (n : Nat) {rest : List Char} (ends : EndsNumber rest) :
    digits1 (Nat.toDigits 10 n ++ rest) = some (Nat.toDigits 10 n, rest) := by
  have digits : ∀ c ∈ Nat.toDigits 10 n, c.isDigit = true :=
    fun c => Nat.isDigit_of_mem_toDigits (by decide) (by decide)
  have stop : rest.takeWhile Char.isDigit = [] ∧ rest.dropWhile Char.isDigit = rest := by
    cases rest with
    | nil => exact ⟨rfl, rfl⟩
    | cons c rest => simp [(ends c rfl).1]
  have taken : (Nat.toDigits 10 n ++ rest).takeWhile Char.isDigit = Nat.toDigits 10 n := by
    rw [List.takeWhile_append_of_pos digits, stop.1, List.append_nil]
  have left : (Nat.toDigits 10 n ++ rest).dropWhile Char.isDigit = rest := by
    rw [List.dropWhile_append_of_pos digits, stop.2]
  have nonempty : Nat.toDigits 10 n ≠ [] := Nat.toDigits_ne_nil
  simp only [digits1, taken, left]

lemma fraction_none {rest : List Char} (ends : EndsNumber rest) :
    fraction rest = some ([], rest) := by
  cases rest with
  | nil => rfl
  | cons c rest =>
    have notPoint := (ends c rfl).2.1
    rw [fraction.eq_def]
    simp_all

lemma exponent_none {rest : List Char} (ends : EndsNumber rest) :
    exponent rest = some (none, rest) := by
  cases rest with
  | nil => rfl
  | cons c rest =>
    have here := (ends c rfl).2.2
    simp [exponent, here.1, here.2]

/-- The digits of a number have no zero in front, so they are one number. -/
lemma number_digits (negative : Bool) (n : Nat) {rest : List Char} (ends : EndsNumber rest) :
    (digits1 (Nat.toDigits 10 n ++ rest)).bind (fun (whole, s) =>
      if whole.head? = some '0' && 1 < whole.length then none
      else (fraction s).bind fun (decimals, s) => (exponent s).bind fun (power, s) =>
        some (numberOf negative whole decimals power, s)) =
      some (numberOf negative (Nat.toDigits 10 n) [] none, rest) := by
  have noZero : ((Nat.toDigits 10 n).head? = some '0' && 1 < (Nat.toDigits 10 n).length) =
      false := by
    rcases Nat.eq_zero_or_pos n with rfl | positive
    · rfl
    · simp [toDigits_head positive]
  simp only [digits1_toDigits n ends, Option.bind_some, noZero, Bool.false_eq_true, if_false,
    fraction_none ends, exponent_none ends]

lemma numberOf_digits {negative : Bool} {n : Nat} {signed : Int}
    (same : (if negative then -(n : Int) else n) = signed) (fits : isInteger signed = true)
    (notZero : negative = true → n ≠ 0) :
    numberOf negative (Nat.toDigits 10 n) [] none = .integer signed := by
  have digits : Nat.ofDigitChars 10 (Nat.toDigits 10 n ++ []) 0 = n := by
    rw [List.append_nil, Nat.ofDigitChars_ten_toDigits]
  have sign : (negative && decide (n = 0)) = false := by
    cases negative <;> simp_all
  simp only [numberOf, digits, same, fits, sign, decide_true, Bool.and_self, Bool.not_false,
    if_true]

lemma takes_integer {n : Int} (fits : isInteger n = true) :
    Takes number (integerChars n) (.integer n) := by
  intro rest ends
  cases n with
  | ofNat n =>
    have read : numberOf false (Nat.toDigits 10 n) [] none = .integer (.ofNat n) :=
      numberOf_digits rfl fits nofun
    have digits := number_digits false n ends
    rw [read] at digits
    obtain ⟨c, others, start, isDigit⟩ := toDigits_cons n
    have notMinus : c ≠ '-' := ne_of_isDigit isDigit rfl
    rw [← digits, integerChars, number.eq_def]
    simp_all
  | negSucc n =>
    have read : numberOf true (Nat.toDigits 10 (n + 1)) [] none = .integer (.negSucc n) :=
      numberOf_digits rfl fits fun _ => Nat.succ_ne_zero n
    have digits := number_digits true (n + 1) ends
    rw [read] at digits
    exact digits

end Json

end UpgradeSafety
