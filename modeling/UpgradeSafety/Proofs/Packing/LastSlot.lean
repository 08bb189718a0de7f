import Mathlib.Order.Bounds.Basic
import UpgradeSafety.Proofs.Packing.FirstFit

/-!
# The end of storage

Where no more values fit. A value that shares its slot is refused exactly if it would start
behind the last slot. One with slots of its own is refused as well if it would end with the
last slot, since there is no slot behind it that the first free position could be at.
-/

namespace UpgradeSafety

/-- The number of bytes that storage has. -/
def storageBytes : Nat := slotBytes * Numeral.bound256

namespace Position

variable {p free : Position} {f : Footprint} {fs : List Footprint}

lemma aligned?_eq (inWord : p.slot < Numeral.bound256) (f : Footprint) :
    p.aligned? f =
      if (p.startFor f).slot < Numeral.bound256 then some (p.startFor f) else none := by
  rw [aligned?, startFor]
  by_cases moves : 0 < p.offset ∧ (f.ownSlot ∨ slotBytes - p.offset < f.bytes)
  · rw [if_pos moves, if_pos moves]
    by_cases fits : p.slot + 1 < Numeral.bound256
    · rw [if_pos fits, word?_of_lt fits, Option.map_some]
    · rw [if_neg fits, word?_of_le (Nat.not_lt.1 fits), Option.map_none]
  · rw [if_neg moves, if_neg moves, if_pos inWord]

lemma beyond?_eq_none_iff :
    p.beyond? f = none ↔ f.ownSlot = true ∧ Numeral.bound256 ≤ p.slot + f.slotCount := by
  rw [beyond?]
  split
  · next own =>
    rw [Option.map_eq_none_iff, and_iff_right own]
    rcases Nat.lt_or_ge (p.slot + f.slotCount) Numeral.bound256 with fits | past
    · simp [word?_of_lt fits, fits]
    · simp [word?_of_le past, past]
  · next shared => simp [shared]

/-- A value is refused if there is no slot to start in, or none behind its own ones. -/
lemma place_eq_none_iff (inWord : p.slot < Numeral.bound256) (f : Footprint) :
    (p.place f).1 = none ↔ Numeral.bound256 ≤ (p.startFor f).slot ∨
      f.ownSlot = true ∧ Numeral.bound256 ≤ (p.startFor f).slot + f.slotCount := by
  rw [place, aligned?_eq inWord, ← beyond?_eq_none_iff]
  by_cases fits : (p.startFor f).slot < Numeral.bound256
  · simp only [if_pos fits, Nat.not_le.2 fits, false_or]
    cases (p.startFor f).beyond? f <;> simp
  · simp [if_neg fits, Nat.not_lt.1 fits]

/-- Slots are reserved for all bytes of a value that has slots of its own, and for no more. -/
lemma bytes_past_iff (own : f.ownSlot = true) (slot : Nat) :
    storageBytes < slotBytes * slot + f.bytes ↔ storageBytes < slotBytes * slot + f.reserved := by
  have count : f.slotCount = ceilDiv f.bytes slotBytes := rfl
  rw [Footprint.reserved_own own, count, ceilDiv]
  by_cases whole : f.bytes % slotBytes = 0
  · rw [if_pos whole]
    simp only [storageBytes, slotBytes] at whole ⊢
    omega
  · rw [if_neg whole]
    simp only [storageBytes, slotBytes] at whole ⊢
    omega

/--
Where values have been placed and another one follows, there is a first byte at which it may
start, and it is refused in two cases. Either it would reach past the last slot from there, or
it has slots of its own and these would end with the last slot.
-/
theorem place_refused_iff {starts : List Position} (shapes : ∀ g ∈ fs, g.Placeable)
    (run : origin.placements fs = (starts.map some, free)) (shape : f.Placeable) :
    ∃ byte, IsLeast {byte | f.MayStart byte ∧ ∀ q ∈ fs.zip starts, stop q ≤ byte} byte ∧
      ((free.place f).1 = none ↔ storageBytes < byte + f.bytes ∨
        f.ownSlot = true ∧ byte + f.reserved = storageBytes) := by
  have inWord := slot_lt_of_placements (by decide) run
  refine ⟨(free.startFor f).byte, startFor_isLeast_behind shapes run shape, ?_⟩
  rw [place_eq_none_iff inWord]
  rcases startFor_room (p := free) shape with ⟨own, first⟩ | ⟨shared, positive, room⟩
  · rw [byte, first, Nat.add_zero, bytes_past_iff own, Footprint.reserved_own own]
    simp only [own, true_and, storageBytes, slotBytes]
    omega
  · simp only [shared, Bool.false_eq_true, false_and, or_false, byte, storageBytes,
      slotBytes] at room ⊢
    omega

/-! ### Storage that is filled up to its last slot -/

/-- The widths of 32 arrays of words that are as long as can be, and of one more array, which
leave one slot. -/
def upToLastSlot : List Footprint :=
  List.replicate 32 ⟨Nat.pow 2 256 - 32, true⟩ ++ [⟨31 * 32, true⟩]

/-- Where these arrays start. -/
def upToLastSlotStarts : List Position := (List.range 33).map fun i => ⟨i * (Nat.pow 2 251 - 1), 0⟩

lemma upToLastSlot_run :
    origin.placements upToLastSlot = (upToLastSlotStarts.map some, ⟨Nat.pow 2 256 - 1, 0⟩) := by
  decide +kernel

lemma upToLastSlot_placeable : ∀ g ∈ upToLastSlot, g.Placeable := by
  have own : ∀ g ∈ upToLastSlot, g.ownSlot = true := by decide +kernel
  exact fun g hg => Or.inl (own g hg)

lemma placeable_word : Footprint.word.Placeable := Or.inl rfl

lemma placeable_fullSlot : (Footprint.packed slotBytes).Placeable :=
  Or.inr ⟨rfl, by decide, Nat.le_refl _⟩

/-- Behind these arrays every value that needs one slot starts with the last slot. -/
lemma upToLastSlot_isLeast (shape : f.Placeable) :
    IsLeast {byte | f.MayStart byte ∧ ∀ q ∈ upToLastSlot.zip upToLastSlotStarts, stop q ≤ byte}
      (storageBytes - slotBytes) := by
  have stays : startFor ⟨Nat.pow 2 256 - 1, 0⟩ f = ⟨Nat.pow 2 256 - 1, 0⟩ :=
    if_neg fun moves => Nat.lt_irrefl 0 moves.1
  have last : byte ⟨Nat.pow 2 256 - 1, 0⟩ = storageBytes - slotBytes := by decide +kernel
  have least := startFor_isLeast_behind upToLastSlot_placeable upToLastSlot_run shape
  rwa [stays, last] at least

/-- A value that fills the last slot and shares slots with others is placed there. -/
theorem last_slot_filled :
    origin.placements upToLastSlot = (upToLastSlotStarts.map some, ⟨Nat.pow 2 256 - 1, 0⟩) ∧
      (place ⟨Nat.pow 2 256 - 1, 0⟩ (.packed slotBytes)).1 ≠ none := by
  refine ⟨upToLastSlot_run, fun refused => ?_⟩
  obtain ⟨byte, least, exactly⟩ :=
    place_refused_iff upToLastSlot_placeable upToLastSlot_run placeable_fullSlot
  obtain rfl := least.unique (upToLastSlot_isLeast placeable_fullSlot)
  rcases exactly.1 refused with past | ⟨own, -⟩
  · exact absurd past (by decide +kernel)
  · cases own

/-- A mapping that would take just the last slot is refused, though it does not reach past it. -/
theorem last_slot_refuses_mapping :
    (∀ g ∈ upToLastSlot, g.Placeable) ∧ Footprint.word.Placeable ∧
      origin.placements upToLastSlot = (upToLastSlotStarts.map some, ⟨Nat.pow 2 256 - 1, 0⟩) ∧
      ¬ ∀ byte, IsLeast {byte | Footprint.word.MayStart byte ∧
          ∀ q ∈ upToLastSlot.zip upToLastSlotStarts, stop q ≤ byte} byte →
        ((place ⟨Nat.pow 2 256 - 1, 0⟩ .word).1 = none ↔
          storageBytes < byte + Footprint.word.bytes) := by
  refine ⟨upToLastSlot_placeable, placeable_word, upToLastSlot_run, fun onlyPast => ?_⟩
  have refused : (place ⟨Nat.pow 2 256 - 1, 0⟩ .word).1 = none := by decide +kernel
  have past := (onlyPast _ (upToLastSlot_isLeast placeable_word)).1 refused
  exact absurd past (by decide +kernel)

end Position

end UpgradeSafety
