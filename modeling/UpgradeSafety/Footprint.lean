import UpgradeSafety.Numeral
import UpgradeSafety.TypeId.Canonical

/-!
# Footprints and positions in storage

How much room a value takes in place, and where the next value goes. Storage is
a row of slots of 32 bytes, numbered by 256-bit words. Values narrower than a
slot share one as long as they fit in what is left of it; a value with a slot of
its own starts at a slot boundary, and so does whatever follows it. Everything
that would need a slot number or a size of more than 256 bits is refused.
-/

namespace UpgradeSafety

/-- The width of a slot in bytes. -/
def slotBytes : Nat := 32

/-- A number, if it fits in a storage word. -/
def word? (n : Nat) : Option Nat := if n < Numeral.bound256 then some n else none

/-- The room that a value takes in place. -/
structure Footprint where
  bytes : Nat
  /-- Whether the value starts, and is followed by, a fresh slot. -/
  ownSlot : Bool
  deriving DecidableEq, Repr

/-- The quotient rounded up. -/
def ceilDiv (numerator denominator : Nat) : Nat :=
  if numerator % denominator = 0 then numerator / denominator else numerator / denominator + 1

theorem ceilDiv_le_iff {numerator denominator bound : Nat} (positive : 0 < denominator) :
    ceilDiv numerator denominator ≤ bound ↔ numerator ≤ bound * denominator := by
  rw [ceilDiv]
  split
  · next whole =>
    rw [← Nat.mul_le_mul_right_iff positive, Nat.div_mul_cancel (Nat.dvd_of_mod_eq_zero whole)]
  · next rest =>
    have unequal : numerator ≠ bound * denominator := by
      rintro rfl
      exact rest (Nat.mul_mod_left bound denominator)
    rw [Nat.succ_le_iff, Nat.div_lt_iff_lt_mul positive]
    omega

namespace Footprint

/-- A value that may share a slot with its neighbours. -/
def packed (bytes : Nat) : Footprint := ⟨bytes, false⟩

/-- A value that takes `count` whole slots. -/
def slots (count : Nat) : Option Footprint :=
  (word? (count * slotBytes)).map fun bytes => ⟨bytes, true⟩

/-- A value that takes one slot of its own, such as a mapping. -/
def word : Footprint := ⟨slotBytes, true⟩

/-- The number of slots that a value with a slot of its own reserves. -/
def slotCount (f : Footprint) : Nat := ceilDiv f.bytes slotBytes

end Footprint

/-! ## Placing values one after another -/

/-- A byte of storage, counted from the start of a slot. -/
structure Position where
  slot : Nat
  offset : Nat
  deriving DecidableEq, Repr

namespace Position

def origin : Position := ⟨0, 0⟩

/-- Where a value that needs a fresh slot goes on; none behind the last slot. -/
def aligned? (p : Position) (f : Footprint) : Option Position :=
  if 0 < p.offset ∧ (f.ownSlot ∨ slotBytes - p.offset < f.bytes) then
    (word? (p.slot + 1)).map fun slot => ⟨slot, 0⟩
  else some p

/-- The first free position behind a value that starts at `p`. -/
def beyond? (p : Position) (f : Footprint) : Option Position :=
  if f.ownSlot then (word? (p.slot + f.slotCount)).map fun slot => ⟨slot, p.offset⟩
  else some ⟨p.slot, p.offset + f.bytes⟩

/--
The start of a value placed at the first free position `p`, and the first free
position afterwards. A value that does not fit has no start, and what is free
afterwards is then as far as the attempt came.
-/
def place (p : Position) (f : Footprint) : Option Position × Position :=
  match p.aligned? f with
  | none => (none, p)
  | some start =>
    match start.beyond? f with
    | none => (none, start)
    | some next => (some start, next)

/-- The number of slots touched by what lies before the first free position `p`. -/
def slotsBefore? (p : Position) : Option Nat :=
  if 0 < p.offset then word? (p.slot + 1) else some p.slot

/-- The first free position after placing the values in order, if all of them fit. -/
def placeAll (p : Position) : List Footprint → Option Position
  | [] => some p
  | f :: rest =>
    match p.place f with
    | (some _, next) => next.placeAll rest
    | (none, _) => none

end Position

namespace Footprint

/-- The footprint of a struct from those of its members in order. -/
def struct? (members : List Footprint) : Option Footprint := do
  let free ← Position.origin.placeAll members
  slots (← free.slotsBefore?)

/-- The footprint of an array of `length` elements; as many share a slot as fit in it. -/
def fixedArray? (element : Footprint) (length : Nat) : Option Footprint :=
  if element.ownSlot then (word? (length * element.slotCount)).bind slots
  else slots (ceilDiv length (slotBytes / element.bytes))

/-! ## Elementary types -/

/-- What follows `head` in a text that begins with it. -/
def after? (head : String) (text : List Char) : Option (List Char) :=
  if head.toList.isPrefixOf text then some (text.drop head.toList.length) else none

/-- The number of bytes in a number of bits, read from all of a text. -/
def bytesOfBits? (text : List Char) : Option Nat :=
  (Numeral.read? Numeral.bound64 text).map (· / 8)

/-- The width in bytes that the id of an elementary type other than `string` or `bytes` states. -/
def elementaryWidth? (text : List Char) : Option Nat :=
  if text = "t_bool".toList then some 1
  else if text = "t_address".toList ∨ text = "t_address_payable".toList then some 20
  else if (after? "t_function_internal" text).isSome then some 8
  else if (after? "t_function_external" text).isSome then some 24
  else
    match (after? "t_uint" text).or (after? "t_int" text), after? "t_bytes" text,
      (after? "t_ufixed" text).or (after? "t_fixed" text) with
    | some bits, _, _ => bytesOfBits? bits
    | none, some bytes, _ => Numeral.read? Numeral.bound64 bytes
    | none, none, some sizes =>
      if 'x' ∈ sizes then bytesOfBits? (sizes.takeWhile (· ≠ 'x')) else none
    | none, none, none => none

/-- The footprint of an elementary type; none for an id that names no such type. -/
def ofElementary? (id : TypeId) : Option Footprint :=
  let text := id.toList
  if (after? "t_string" text).isSome ∨ (after? "t_bytes_" text).isSome then some word
  else (elementaryWidth? text).bind fun width =>
    if 1 ≤ width ∧ width ≤ slotBytes then some (packed width) else none

/-- The width of a contract reference, which is an address. -/
def contract : Footprint := packed 20

/-- The fewest bytes that number `count` enum members, at least one. -/
def enumBytes (count : Nat) : Nat := ceilDiv (Nat.log2 (max count 2 - 1) + 1) 8

theorem enumBytes_pos (count : Nat) : 0 < enumBytes count := by
  have unnumbered : ¬ enumBytes count ≤ 0 := by
    rw [enumBytes, ceilDiv_le_iff (by decide)]
    omega
  exact Nat.not_le.1 unnumbered

/-- So many bytes number the members exactly if they have a value for each of them. -/
theorem enumBytes_le_iff {count width : Nat} (positive : 1 ≤ width) :
    enumBytes count ≤ width ↔ count ≤ Nat.pow 256 width := by
  have bits : Nat.pow 2 (width * 8) = Nat.pow 256 width := by
    rw [Nat.mul_comm]
    exact Nat.pow_mul 2 8 width
  have two : 2 ≤ Nat.pow 256 width :=
    Nat.le_trans (by decide) (Nat.pow_le_pow_right (by decide) positive)
  have last : Nat.log2 (max count 2 - 1) < width * 8 ↔ max count 2 - 1 < Nat.pow 256 width := by
    rw [← bits]
    exact Nat.log2_lt (by omega)
  rw [enumBytes, ceilDiv_le_iff (by decide), Nat.succ_le_iff, last]
  omega

end Footprint

end UpgradeSafety
