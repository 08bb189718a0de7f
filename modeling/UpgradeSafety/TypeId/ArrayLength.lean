import UpgradeSafety.TypeId.Canonical

/-!
# Array lengths

The length of an array stands behind the bracket that closes its element type,
as a number or as the mark of a dynamic array.
-/

namespace UpgradeSafety

inductive ArrayLength where
  | fixed (length : Nat)
  | dynamic
  deriving DecidableEq, Repr

namespace TypeId

/-- What follows the bracket that closes the last of `depth + 1` open ones. -/
def afterClosing : Nat → List Char → Option (List Char)
  | _, [] => none
  | depth, '(' :: rest => afterClosing (depth + 1) rest
  | 0, ')' :: rest => some rest
  | depth + 1, ')' :: rest => afterClosing depth rest
  | depth, _ :: rest => afterClosing depth rest

def arrayHead : List Char := "t_array(".toList

/-- The length in a canonical array id; none for an id that is no array's. -/
def arrayLength? (id : TypeId) : Option ArrayLength :=
  let text := id.toList
  if arrayHead.isPrefixOf text then
    (afterClosing 0 (text.drop arrayHead.length)).bind fun rest =>
      if "dyn".toList.isPrefixOf rest then some .dynamic
      else (Numeral.ofDigits? Numeral.bound256 (rest.takeWhile Char.isDigit)).map .fixed
  else none

end TypeId

end UpgradeSafety
