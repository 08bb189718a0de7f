import UpgradeSafety.Numeral

/-!
# The range of numbers

A number in a text may be as large as a double-precision number that is computed
in two steps. Its digits are taken into a significand of 64 bits as long as they
fit. The significand and the power of ten that it is scaled by are then rounded
to 53 bits each, and so is their product. Both roundings may carry a number just
below the bound over it, or one just above it back.
-/

namespace UpgradeSafety.Json

/-- A number rounded to its 53 highest bits, a half to the even neighbour. -/
def roundTo53Bits (n : Nat) : Nat :=
  let unit := Nat.pow 2 (Nat.log2 n - 52)
  let below := n / unit
  let rest := n % unit
  if 2 * rest < unit || (2 * rest = unit && below % 2 = 0) then below * unit
  else (below + 1) * unit

/-- The least number that is rounded to infinity: half a unit above the greatest double. -/
def infinityBound : Nat := Nat.pow 2 1024 - Nat.pow 2 970

/-- Takes digits into a significand while it stays below 2^64, and gives back the other digits. -/
def takeDigits : Nat → List Char → Nat × List Char
  | significand, [] => (significand, [])
  | significand, digit :: rest =>
    let next := significand * 10 + (digit.toNat - '0'.toNat)
    if next < Numeral.bound64 then takeDigits next rest else (significand, digit :: rest)

/--
Whether a number is finite as a double. Each whole digit that is left over scales
it by ten, a decimal that is left over does not count.
-/
def isFinite (whole decimals : List Char) (exponent : Int) : Bool :=
  let (significand, wholeLeft) := takeDigits 0 whole
  let (significand, decimalsLeft) := takeDigits significand decimals
  let scale : Int := wholeLeft.length - (decimals.length - decimalsLeft.length) + exponent
  significand = 0 || scale < 0 ||
    (scale ≤ 308 &&
      roundTo53Bits significand * roundTo53Bits (Nat.pow 10 scale.toNat) < infinityBound)

end UpgradeSafety.Json
