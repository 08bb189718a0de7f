/-!
# Decimal numerals

Unsigned numbers as the documents write them: an optional plus sign and at
least one ASCII digit, for a value below a stated bound. Signs, blanks,
separators and digits of other scripts are refused; leading zeros are not.
-/

namespace UpgradeSafety.Numeral

/-- The first number that does not fit in 32 bits. -/
def bound32 : Nat := Nat.pow 2 32

/-- The first number that does not fit in a signed 64-bit number. -/
def bound63 : Nat := Nat.pow 2 63

/-- The first number that does not fit in 64 bits. -/
def bound64 : Nat := Nat.pow 2 64

/-- The first number that does not fit in a 256-bit storage word. -/
def bound256 : Nat := Nat.pow 2 256

/-- The digits of `n`, without leading zeros. -/
def digits (n : Nat) : List Char := Nat.toDigits 10 n

def write (n : Nat) : String := String.ofList (digits n)

/-- Reads a nonempty run of digits and nothing else. -/
def ofDigits? (bound : Nat) (text : List Char) : Option Nat :=
  let n := Nat.ofDigitChars 10 text 0
  if text ≠ [] ∧ text.all Char.isDigit ∧ n < bound then some n else none

/-- Reads digits after an optional plus sign. -/
def read? (bound : Nat) : List Char → Option Nat
  | '+' :: text => ofDigits? bound text
  | text => ofDigits? bound text

theorem ofDigits?_digits {n bound : Nat} (h : n < bound) : ofDigits? bound (digits n) = some n := by
  have value : Nat.ofDigitChars 10 (digits n) 0 = n :=
    Nat.ofDigitChars_toDigits (by decide) (by decide)
  have all : (digits n).all Char.isDigit = true :=
    List.all_eq_true.2 fun c hc => Nat.isDigit_of_mem_toDigits (by decide) (by decide) hc
  have nonempty : digits n ≠ [] := Nat.toDigits_ne_nil
  rw [ofDigits?, value, if_pos ⟨nonempty, all, h⟩]

theorem ofDigits?_lt {bound n : Nat} {text : List Char} (h : ofDigits? bound text = some n) :
    n < bound := by
  simp only [ofDigits?] at h
  split at h
  · next hc => obtain ⟨_, _, hlt⟩ := hc; simp_all
  · cases h

theorem read?_digits {n bound : Nat} (h : n < bound) : read? bound (digits n) = some n := by
  unfold read?
  split
  · next text hd =>
    have : ('+' : Char).isDigit = true :=
      Nat.isDigit_of_mem_toDigits (b := 10) (n := n) (by decide) (by decide)
        (by rw [← digits, hd]; exact List.mem_cons_self)
    exact absurd this (by decide)
  · exact ofDigits?_digits h

end UpgradeSafety.Numeral
