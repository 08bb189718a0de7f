import UpgradeSafety.Proofs.Packing.Placing

/-!
# Arrays are placed element by element

The size of an array comes from one division. It is the size of a struct with a member
for each element: either all elements have slots of their own, or each slot takes as many
as fit in it. Both have no size for the same arrays, those that need more than 256 bits.
-/

namespace UpgradeSafety

lemma ceilDiv_add_self {d : Nat} (positive : 0 < d) (n : Nat) :
    ceilDiv (d + n) d = ceilDiv n d + 1 := by
  simp only [ceilDiv, Nat.add_mod_left, Nat.add_div_left n positive]
  split <;> rfl

lemma ceilDiv_of_le {n d : Nat} (positive : 0 < n) (atMost : n ≤ d) : ceilDiv n d = 1 := by
  rcases Nat.lt_or_eq_of_le atMost with less | rfl
  · rw [ceilDiv, Nat.mod_eq_of_lt less, if_neg (by omega), Nat.div_eq_of_lt less]
  · rw [ceilDiv, Nat.mod_self, if_pos rfl, Nat.div_self positive]

namespace Position

variable {p start next : Position} {f : Footprint} {fs : List Footprint} {slot bytes : Nat}

/-- The number of slots touched by what lies before `p` and by values placed after it in order. -/
def slotsAfter? (p : Position) (fs : List Footprint) : Option Nat :=
  (p.placeAll fs).bind slotsBefore?

lemma slotsAfter?_placed (h : p.place f = (some start, next)) :
    p.slotsAfter? (f :: fs) = next.slotsAfter? fs := by
  simp only [slotsAfter?, placeAll, h]

lemma slotsAfter?_full (h : (p.place f).1 = none) : p.slotsAfter? (f :: fs) = none := by
  rcases placed : p.place f with ⟨start | start, next⟩
  · simp only [slotsAfter?, placeAll, placed, Option.bind_none]
  · rw [placed] at h
    cases h

/-- A value with slots of its own stays where it is at the start of a slot. -/
lemma place_own (own : f.ownSlot = true) (slot : Nat) : place ⟨slot, 0⟩ f =
    if slot + f.slotCount < Numeral.bound256 then (some ⟨slot, 0⟩, ⟨slot + f.slotCount, 0⟩)
    else (none, ⟨slot, 0⟩) := by
  have stays : aligned? ⟨slot, 0⟩ f = some ⟨slot, 0⟩ := if_neg fun moves => Nat.lt_irrefl 0 moves.1
  split
  · next fits =>
    simp only [place, stays, beyond?, own, if_true, word?_of_lt fits, Option.map_some]
  · next past =>
    have full := word?_of_le (Nat.not_lt.1 past)
    simp only [place, stays, beyond?, own, if_true, full, Option.map_none]

/-- Values with slots of their own reserve the sum of their slots. -/
lemma slotsAfter?_own (own : f.ownSlot = true) (count : Nat) (inWord : slot < Numeral.bound256) :
    slotsAfter? ⟨slot, 0⟩ (List.replicate count f) = word? (slot + count * f.slotCount) := by
  induction count generalizing slot with
  | zero =>
    rw [Nat.zero_mul, Nat.add_zero, word?_of_lt inWord]
    rfl
  | succ count ih =>
    have total : slot + (count + 1) * f.slotCount =
        slot + f.slotCount + count * f.slotCount := by
      rw [Nat.succ_mul]
      omega
    rw [List.replicate_succ, total]
    have placed := place_own own slot
    by_cases fits : slot + f.slotCount < Numeral.bound256
    · rw [if_pos fits] at placed
      rw [slotsAfter?_placed placed, ih fits]
    · rw [if_neg fits] at placed
      rw [slotsAfter?_full (congrArg Prod.fst placed), word?_of_le (by omega)]

lemma beyond?_packed (p : Position) (bytes : Nat) :
    p.beyond? (.packed bytes) = some ⟨p.slot, p.offset + bytes⟩ := rfl

/-- In a slot that has room for another value, the value goes behind those that are there. -/
lemma place_packed_behind {used : Nat} (room : used < slotBytes / bytes) :
    place ⟨slot, used * bytes⟩ (.packed bytes) =
      (some ⟨slot, used * bytes⟩, ⟨slot, (used + 1) * bytes⟩) := by
  have positive : 0 < bytes := by
    rcases Nat.eq_zero_or_pos bytes with rfl | positive
    · rw [Nat.div_zero] at room
      omega
    · exact positive
  have fits : (used + 1) * bytes ≤ slotBytes := (Nat.le_div_iff_mul_le positive).1 room
  rw [Nat.succ_mul] at fits ⊢
  have stays : aligned? ⟨slot, used * bytes⟩ (.packed bytes) = some ⟨slot, used * bytes⟩ := by
    refine if_neg fun moves => ?_
    rcases moves.2 with own | crowded
    · cases own
    · simp only [Footprint.packed] at crowded
      omega
  simp only [place, stays, beyond?_packed]

/-- Behind a slot that has no more room a value starts the next one, if there is one. -/
lemma place_packed_next (positive : 1 ≤ bytes) (narrow : bytes ≤ slotBytes) (slot : Nat) :
    place ⟨slot, slotBytes / bytes * bytes⟩ (.packed bytes) =
      if slot + 1 < Numeral.bound256 then (some ⟨slot + 1, 0⟩, ⟨slot + 1, 1 * bytes⟩)
      else (none, ⟨slot, slotBytes / bytes * bytes⟩) := by
  have holdsOne : 1 * bytes ≤ slotBytes / bytes * bytes :=
    Nat.mul_le_mul_right bytes ((Nat.one_le_div_iff positive).2 narrow)
  have remainder : slotBytes - slotBytes / bytes * bytes < bytes := by
    have parts := Nat.div_add_mod slotBytes bytes
    have less := Nat.mod_lt slotBytes positive
    rw [Nat.mul_comm] at parts
    omega
  have moves : aligned? ⟨slot, slotBytes / bytes * bytes⟩ (.packed bytes) =
      (word? (slot + 1)).map fun slot => ⟨slot, 0⟩ := if_pos ⟨by simp only; omega, .inr remainder⟩
  split
  · next fits =>
    simp only [place, moves, word?_of_lt fits, Option.map_some, beyond?_packed, Nat.zero_add,
      Nat.one_mul]
  · next past => simp only [place, moves, word?_of_le (Nat.not_lt.1 past), Option.map_none]

/-- Values that share slots touch as many slots as it takes to hold them all. -/
lemma slotsAfter?_packed (positive : 1 ≤ bytes) (narrow : bytes ≤ slotBytes) (count : Nat)
    {used : Nat} (held : used ≤ slotBytes / bytes) (inWord : slot < Numeral.bound256) :
    slotsAfter? ⟨slot, used * bytes⟩ (List.replicate count (.packed bytes)) =
      word? (slot + ceilDiv (used + count) (slotBytes / bytes)) := by
  have perSlot : 1 ≤ slotBytes / bytes := (Nat.one_le_div_iff positive).2 narrow
  induction count generalizing slot used with
  | zero =>
    rcases Nat.eq_zero_or_pos used with rfl | some'
    · rw [Nat.zero_mul, ceilDiv, Nat.zero_mod, if_pos rfl, Nat.zero_div, Nat.add_zero,
        word?_of_lt inWord]
      rfl
    · rw [Nat.add_zero, ceilDiv_of_le some' held]
      exact if_pos (Nat.mul_pos some' positive)
  | succ count ih =>
    rw [List.replicate_succ]
    rcases Nat.lt_or_eq_of_le held with room | rfl
    · have total : used + 1 + count = used + (count + 1) := by omega
      rw [slotsAfter?_placed (place_packed_behind room), ih room inWord, total]
    · have placed := place_packed_next positive narrow slot
      have total : slot + ceilDiv (slotBytes / bytes + (count + 1)) (slotBytes / bytes) =
          slot + 1 + ceilDiv (1 + count) (slotBytes / bytes) := by
        rw [ceilDiv_add_self perSlot, Nat.add_comm count 1]
        omega
      rw [total]
      by_cases fits : slot + 1 < Numeral.bound256
      · rw [if_pos fits] at placed
        rw [slotsAfter?_placed placed, ih perSlot fits]
      · rw [if_neg fits] at placed
        rw [slotsAfter?_full (congrArg Prod.fst placed), word?_of_le (by omega)]

end Position

namespace Footprint

lemma struct?_eq (members : List Footprint) :
    struct? members = (Position.origin.slotsAfter? members).bind slots :=
  (Option.bind_assoc _ _ _).symm

/-- A number of slots whose bytes can be counted can be counted itself. -/
lemma word?_bind_slots (count : Nat) : (word? count).bind slots = slots count := by
  by_cases fits : count < Numeral.bound256
  · rw [word?_of_lt fits, Option.bind_some]
  · have past : Numeral.bound256 ≤ count * slotBytes := by
      rw [slotBytes]
      omega
    rw [word?_of_le (Nat.not_lt.1 fits), slots, word?_of_le past]
    rfl

/--
The formula for arrays agrees with placing the elements one after another, whether they have
slots of their own or share them: the array has the size of a struct with a member for each
element, and it has none where the struct has none.
-/
theorem fixedArray?_eq_struct?_replicate (element : Footprint) (length : Nat)
    (shape : element.ownSlot = true ∨
      element.ownSlot = false ∧ 1 ≤ element.bytes ∧ element.bytes ≤ slotBytes) :
    element.fixedArray? length = struct? (List.replicate length element) := by
  have first : 0 < Numeral.bound256 := by decide
  rw [struct?_eq, Position.origin, fixedArray?]
  rcases shape with own | ⟨shared, positive, narrow⟩
  · rw [if_pos own, Position.slotsAfter?_own own length first, Nat.zero_add]
  · obtain ⟨bytes, _⟩ := element
    obtain rfl := shared
    have placed := Position.slotsAfter?_packed positive narrow length (Nat.zero_le _) first
    rw [Nat.zero_mul, Nat.zero_add, Nat.zero_add] at placed
    change slots _ = (Position.slotsAfter? _ (List.replicate length (packed bytes))).bind slots
    rw [placed, word?_bind_slots]

/-- Five values of 12 bytes share three slots, and there is no storage for as many addresses as
there are slots in it but one. -/
theorem shared_slots_sized :
    struct? (List.replicate 5 (packed 12)) = some ⟨96, true⟩ ∧
      struct? (List.replicate (Numeral.bound256 - 1) (packed 20)) = none := by
  constructor
  · rw [← fixedArray?_eq_struct?_replicate (packed 12) 5 (.inr ⟨rfl, by decide, by decide⟩)]
    decide
  · rw [← fixedArray?_eq_struct?_replicate (packed 20) _ (.inr ⟨rfl, by decide, by decide⟩)]
    decide +kernel

end Footprint

end UpgradeSafety
