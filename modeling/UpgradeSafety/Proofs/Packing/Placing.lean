import Mathlib.Tactic.Lemma
import UpgradeSafety.Footprint

/-!
# Where a value is placed

The footprints that types can have, and what placing a value of such a footprint
comes to in bytes counted from the start of storage. The first free position may
stand behind the last byte of a slot, which is then full; it never stands further
behind it.
-/

namespace UpgradeSafety

lemma word?_of_lt {n : Nat} (fits : n < Numeral.bound256) : word? n = some n := if_pos fits

lemma word?_of_le {n : Nat} (past : Numeral.bound256 ≤ n) : word? n = none :=
  if_neg (Nat.not_lt.2 past)

lemma word?_eq_some_iff {n m : Nat} : word? n = some m ↔ n < Numeral.bound256 ∧ m = n := by
  rcases Nat.lt_or_ge n Numeral.bound256 with fits | past
  · simp [word?_of_lt fits, fits, eq_comm]
  · simp [word?_of_le past, Nat.not_lt.2 past]

lemma word?_eq_some {n m : Nat} (h : word? n = some m) : m = n := (word?_eq_some_iff.1 h).2

namespace Footprint

/-- A number of whole slots, or a part of one slot that is not empty. -/
inductive Admissible : Footprint → Prop where
  | slots (count : Nat) : Admissible ⟨count * slotBytes, true⟩
  | packed {bytes : Nat} (positive : 1 ≤ bytes) (fits : bytes ≤ slotBytes) :
      Admissible (packed bytes)

lemma slotCount_slots (count : Nat) : slotCount ⟨count * slotBytes, true⟩ = count := by
  rw [slotCount, ceilDiv, slotBytes, Nat.mul_mod_left, if_pos rfl,
    Nat.mul_div_cancel count (by decide)]

lemma admissible_word : word.Admissible := .slots 1

lemma admissible_contract : contract.Admissible := .packed (by decide) (by decide)

lemma admissible_of_slots {count : Nat} {f : Footprint} (h : slots count = some f) :
    f.Admissible ∧ f.ownSlot = true := by
  obtain ⟨bytes, fits, rfl⟩ := Option.map_eq_some_iff.1 h
  rw [word?_eq_some fits]
  exact ⟨.slots count, rfl⟩

/-- Structs take whole slots, whatever their members take. -/
lemma admissible_struct {members : List Footprint} {f : Footprint}
    (h : struct? members = some f) : f.Admissible ∧ f.ownSlot = true := by
  obtain ⟨free, _, h⟩ := Option.bind_eq_some_iff.1 h
  obtain ⟨count, _, h⟩ := Option.bind_eq_some_iff.1 h
  exact admissible_of_slots h

/-- Arrays take whole slots, whatever their elements take. -/
lemma admissible_fixedArray {element f : Footprint} {length : Nat}
    (h : element.fixedArray? length = some f) : f.Admissible ∧ f.ownSlot = true := by
  rw [fixedArray?] at h
  split at h
  · obtain ⟨count, _, h⟩ := Option.bind_eq_some_iff.1 h
    exact admissible_of_slots h
  · exact admissible_of_slots h

/-- The members of an enum that can be counted by a word of 64 bits are numbered by few bytes. -/
lemma admissible_enum {count : Nat} (counted : count < Numeral.bound64) :
    (packed (enumBytes count)).Admissible := by
  have numbered : count ≤ Nat.pow 256 slotBytes := Nat.le_of_lt (Nat.lt_trans counted (by decide))
  exact .packed (enumBytes_pos count) ((enumBytes_le_iff (by decide)).2 numbered)

end Footprint

namespace TypeId

/-- An id of a type of texts or of byte sequences, which are kept as arrays are. -/
def NamesText (id : TypeId) : Prop :=
  "t_string".toList <+: id.toList ∨ "t_bytes_".toList <+: id.toList

end TypeId

namespace Footprint

lemma after?_isSome {head : String} {text : List Char} :
    (after? head text).isSome = true ↔ head.toList <+: text := by
  rw [after?]
  split
  · next h => simpa using List.isPrefixOf_iff_prefix.1 h
  · next h => simpa using mt List.isPrefixOf_iff_prefix.2 h

/-- Elementary types share slots, apart from those of texts. -/
lemma ofElementary?_admissible {id : TypeId} {f : Footprint} (h : ofElementary? id = some f) :
    f.Admissible ∧ (f.ownSlot = true ↔ id.NamesText) := by
  rw [ofElementary?] at h
  simp only [after?_isSome] at h
  split at h
  · next text =>
    cases h
    exact ⟨admissible_word, iff_of_true rfl text⟩
  · next text =>
    obtain ⟨width, _, h⟩ := Option.bind_eq_some_iff.1 h
    split at h
    · next range =>
      cases h
      exact ⟨.packed range.1 range.2, iff_of_false Bool.false_ne_true text⟩
    · cases h

end Footprint

namespace Position

/-- The number of bytes in front of a position. -/
def byte (p : Position) : Nat := slotBytes * p.slot + p.offset

/-- A value is placed at `start`, not before the first free position, and reaches up to `next`. -/
structure Places (free : Position) (f : Footprint) (start next : Position) : Prop where
  behind : free.byte ≤ start.byte
  stop : next.byte = start.byte + f.bytes
  inside : next.offset ≤ slotBytes
  aligned : f.ownSlot = true → start.offset = 0 ∧ slotBytes ∣ f.bytes
  shared : f.ownSlot = false → start.offset + f.bytes ≤ slotBytes

variable {free start next : Position} {f : Footprint}

/-- A value that needs a fresh slot goes to the next one, and every other one stays. -/
lemma aligned?_eq_some (h : free.aligned? f = some start) :
    (0 < free.offset ∧ start = ⟨free.slot + 1, 0⟩) ∨
      start = free ∧ (free.offset = 0 ∨ f.ownSlot = false ∧ f.bytes ≤ slotBytes - free.offset) := by
  rw [aligned?] at h
  split at h
  · next moves =>
    obtain ⟨slot, fits, rfl⟩ := Option.map_eq_some_iff.1 h
    rw [word?_eq_some fits]
    exact Or.inl ⟨moves.1, rfl⟩
  · next stays =>
    refine Or.inr ⟨(Option.some.inj h).symm, ?_⟩
    by_cases first : free.offset = 0
    · exact Or.inl first
    · right
      have crowded := not_and.1 stays (Nat.pos_of_ne_zero first)
      rw [not_or, Bool.not_eq_true, Nat.not_lt] at crowded
      exact crowded

lemma beyond?_eq_some (h : start.beyond? f = some next) :
    (f.ownSlot = true ∧ next = ⟨start.slot + f.slotCount, start.offset⟩) ∨
      f.ownSlot = false ∧ next = ⟨start.slot, start.offset + f.bytes⟩ := by
  rw [beyond?] at h
  cases own : f.ownSlot with
  | true =>
    rw [own, if_pos rfl] at h
    obtain ⟨slot, fits, rfl⟩ := Option.map_eq_some_iff.1 h
    rw [word?_eq_some fits]
    exact Or.inl ⟨rfl, rfl⟩
  | false =>
    rw [own, if_neg Bool.false_ne_true] at h
    exact Or.inr ⟨rfl, (Option.some.inj h).symm⟩

lemma place_eq_some (h : free.place f = (some start, next)) :
    free.aligned? f = some start ∧ start.beyond? f = some next := by
  rw [place] at h
  cases aligned : free.aligned? f with
  | none => rw [aligned] at h; cases h
  | some first =>
    rw [aligned] at h
    cases beyond : first.beyond? f with
    | none => simp only [beyond] at h; cases h
    | some last =>
      simp only [beyond] at h
      cases h
      exact ⟨rfl, beyond⟩

/-- A value does not move back, as the first free position is in its slot or right behind it. -/
lemma aligned?_behind (inside : free.offset ≤ slotBytes) (h : free.aligned? f = some start) :
    free.byte ≤ start.byte := by
  rcases aligned?_eq_some h with ⟨_, rfl⟩ | ⟨rfl, _⟩
  · simp only [byte, slotBytes] at inside ⊢
    omega
  · exact Nat.le_refl _

/-- What placing a value comes to. -/
lemma places (inside : free.offset ≤ slotBytes) (admissible : f.Admissible)
    (h : free.place f = (some start, next)) : Places free f start next := by
  obtain ⟨aligned, beyond⟩ := place_eq_some h
  have behind := aligned?_behind inside aligned
  cases admissible with
  | slots count =>
    have first : start.offset = 0 := by
      rcases aligned?_eq_some aligned with ⟨_, rfl⟩ | ⟨rfl, first | ⟨shared, _⟩⟩
      · rfl
      · exact first
      · cases shared
    rcases beyond?_eq_some beyond with ⟨_, rfl⟩ | ⟨shared, _⟩
    · refine ⟨behind, ?_, ?_, fun _ => ⟨first, Nat.dvd_mul_left _ _⟩, nofun⟩
      · rw [Footprint.slotCount_slots]
        simp only [byte, slotBytes]
        omega
      · simp only [first, slotBytes]
        omega
    · cases shared
  | @packed bytes positive fits =>
    have first : start.offset + bytes ≤ slotBytes := by
      rcases aligned?_eq_some aligned with ⟨_, rfl⟩ | ⟨rfl, first | ⟨_, rest⟩⟩
      · simpa using fits
      · omega
      · simp only [Footprint.packed] at rest
        omega
    rcases beyond?_eq_some beyond with ⟨own, _⟩ | ⟨_, rfl⟩
    · cases own
    · refine ⟨behind, ?_, first, nofun, fun _ => first⟩
      simp only [byte, Nat.add_assoc]

end Position

end UpgradeSafety
