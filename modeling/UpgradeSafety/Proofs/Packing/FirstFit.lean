import Mathlib.Order.Bounds.Defs
import UpgradeSafety.Proofs.Packing.Nesting

/-!
# Values go to the first bytes that they fit in

A slot and an offset in it stand for one byte, counted from the start of storage; the end
of a full slot and the start of the next one are the same byte. Counted in this way, each
value is placed at the first byte behind all earlier values at which it may start.
-/

namespace UpgradeSafety

namespace Footprint

/-- The footprint of a value with slots of its own, or of one that fits in a part of a slot. -/
def Placeable (f : Footprint) : Prop :=
  f.ownSlot = true ∨ f.ownSlot = false ∧ 1 ≤ f.bytes ∧ f.bytes ≤ slotBytes

/-- The bytes that a value keeps from others, whole slots if these are its own. -/
def reserved (f : Footprint) : Nat := if f.ownSlot then slotBytes * f.slotCount else f.bytes

/-- A value starts at a slot of its own, or wherever it does not cross the end of a slot. -/
def MayStart (f : Footprint) (byte : Nat) : Prop :=
  if f.ownSlot then slotBytes ∣ byte else byte % slotBytes + f.bytes ≤ slotBytes

variable {f : Footprint} {byte : Nat}

lemma reserved_own (own : f.ownSlot = true) : f.reserved = slotBytes * f.slotCount := if_pos own

lemma reserved_shared (shared : f.ownSlot = false) : f.reserved = f.bytes := by
  rw [reserved, shared, if_neg Bool.false_ne_true]

lemma mayStart_own (own : f.ownSlot = true) : f.MayStart byte ↔ slotBytes ∣ byte := by
  rw [MayStart, if_pos own]

lemma mayStart_shared (shared : f.ownSlot = false) :
    f.MayStart byte ↔ byte % slotBytes + f.bytes ≤ slotBytes := by
  rw [MayStart, shared, if_neg Bool.false_ne_true]

end Footprint

namespace Position

/-- The first position from `p` on at which a value may start, in a storage without an end. -/
def startFor (p : Position) (f : Footprint) : Position :=
  if 0 < p.offset ∧ (f.ownSlot ∨ slotBytes - p.offset < f.bytes) then ⟨p.slot + 1, 0⟩ else p

variable {p start next free : Position} {f : Footprint} {fs : List Footprint}

/-! ## One value -/

lemma startFor_cases (p : Position) (f : Footprint) :
    (0 < p.offset ∧ (f.ownSlot = true ∨ slotBytes - p.offset < f.bytes) ∧
        p.startFor f = ⟨p.slot + 1, 0⟩) ∨
      p.startFor f = p ∧ (p.offset = 0 ∨ f.ownSlot = false ∧ f.bytes ≤ slotBytes - p.offset) := by
  rw [startFor]
  split
  · next moves => exact Or.inl ⟨moves.1, moves.2, rfl⟩
  · next stays =>
    refine Or.inr ⟨rfl, ?_⟩
    rcases Nat.eq_zero_or_pos p.offset with first | behind
    · exact Or.inl first
    · have crowded := not_and.1 stays behind
      rw [not_or, Bool.not_eq_true, Nat.not_lt] at crowded
      exact Or.inr crowded

/-- Where a value starts it has its slots for itself, or enough of the slot is left. -/
lemma startFor_room (shape : f.Placeable) :
    f.ownSlot = true ∧ (p.startFor f).offset = 0 ∨
      f.ownSlot = false ∧ 1 ≤ f.bytes ∧ (p.startFor f).offset + f.bytes ≤ slotBytes := by
  rcases shape with own | ⟨shared, positive, narrow⟩
  · refine Or.inl ⟨own, ?_⟩
    rcases startFor_cases p f with ⟨-, -, moved⟩ | ⟨stays, first | ⟨shared, -⟩⟩
    · rw [moved]
    · rw [stays, first]
    · rw [own] at shared
      cases shared
  · refine Or.inr ⟨shared, positive, ?_⟩
    rcases startFor_cases p f with ⟨-, -, moved⟩ | ⟨stays, rest⟩
    · rw [moved]
      simpa using narrow
    · rw [stays]
      rcases rest with first | ⟨-, fits⟩
      · omega
      · have inside : 0 < slotBytes - p.offset := by omega
        omega

/-- No earlier byte that is free is one at which the value may start. -/
lemma startFor_isLeast (inside : p.offset ≤ slotBytes) (shape : f.Placeable) :
    IsLeast {byte | p.byte ≤ byte ∧ f.MayStart byte} (p.startFor f).byte := by
  have behind : p.byte ≤ (p.startFor f).byte := by
    rcases startFor_cases p f with ⟨-, -, moved⟩ | ⟨stays, -⟩
    · rw [moved]
      simp only [byte, slotBytes] at inside ⊢
      omega
    · exact Nat.le_of_eq (congrArg byte stays.symm)
  rcases startFor_room (p := p) shape with ⟨own, first⟩ | ⟨shared, positive, room⟩
  · refine ⟨⟨behind, (Footprint.mayStart_own own).2 ?_⟩, ?_⟩
    · rw [byte, first]
      exact Nat.dvd_mul_right _ _
    · rintro other ⟨free, starts⟩
      obtain ⟨slot, rfl⟩ := (Footprint.mayStart_own own).1 starts
      rcases startFor_cases p f with ⟨partly, -, moved⟩ | ⟨stays, -⟩
      · -- A slot boundary behind a slot that is partly filled is not that of the slot itself.
        rw [moved]
        simp only [byte, slotBytes] at free ⊢
        omega
      · rwa [stays]
  · refine ⟨⟨behind, (Footprint.mayStart_shared shared).2 ?_⟩, ?_⟩
    · have within : (p.startFor f).byte % slotBytes = (p.startFor f).offset := by
        simp only [byte, slotBytes] at room ⊢
        omega
      rw [within]
      exact room
    · rintro other ⟨free, starts⟩
      have fits := (Footprint.mayStart_shared shared).1 starts
      rcases startFor_cases p f with ⟨partly, own | crowded, moved⟩ | ⟨stays, -⟩
      · rw [shared] at own
        cases own
      · -- What is left of the slot is too narrow, from the first free byte to the end of the slot.
        rw [moved]
        simp only [byte, slotBytes] at free fits inside crowded ⊢
        omega
      · rwa [stays]

lemma aligned?_eq_startFor (h : p.aligned? f = some start) : start = p.startFor f := by
  rw [startFor]
  rw [aligned?] at h
  split at h
  · next moves =>
    obtain ⟨slot, counted, rfl⟩ := Option.map_eq_some_iff.1 h
    rw [if_pos moves, word?_eq_some counted]
  · next stays => rw [if_neg stays, Option.some.inj h]

/-- What placing a value comes to, counted in bytes. -/
lemma place_startFor (shape : f.Placeable) (placed : p.place f = (some start, next)) :
    start = p.startFor f ∧ start.offset < slotBytes ∧ next.offset ≤ slotBytes ∧
      next.byte = start.byte + f.reserved := by
  obtain ⟨aligned, beyond⟩ := place_eq_some placed
  have first := aligned?_eq_startFor aligned
  have room := startFor_room (p := p) shape
  rw [← first] at room
  refine ⟨first, ?_⟩
  rcases room with ⟨own, boundary⟩ | ⟨shared, positive, room⟩
  · rcases beyond?_eq_some beyond with ⟨-, rfl⟩ | ⟨shared, -⟩
    · rw [Footprint.reserved_own own]
      simp only [byte, boundary, slotBytes]
      omega
    · rw [own] at shared
      cases shared
  · rcases beyond?_eq_some beyond with ⟨own, -⟩ | ⟨-, rfl⟩
    · rw [shared] at own
      cases own
    · rw [Footprint.reserved_shared shared]
      simp only [byte, slotBytes] at room ⊢
      omega

/-! ## Values one after another -/

/-- The byte behind a placed value. -/
def stop (placed : Footprint × Position) : Nat := placed.2.byte + placed.1.reserved

lemma placements_cons_eq {starts : List Position}
    (run : p.placements (f :: fs) = (starts.map some, free)) :
    ∃ start next others, starts = start :: others ∧ p.place f = (some start, next) ∧
      next.placements fs = (others.map some, free) := by
  obtain ⟨first, last⟩ := Prod.mk.inj run
  rcases placed : p.place f with ⟨at?, next⟩
  rw [placed] at first last
  cases starts with
  | nil => cases first
  | cons start others =>
    obtain ⟨rfl, rest⟩ := List.cons.inj first
    exact ⟨start, next, others, rfl, rfl, Prod.ext rest last⟩

/-- The first free byte after a run is the end of everything that the run has placed. -/
lemma placements_free {starts : List Position} (inside : p.offset ≤ slotBytes)
    (shapes : ∀ f ∈ fs, f.Placeable) (run : p.placements fs = (starts.map some, free)) :
    free.offset ≤ slotBytes ∧
      ∀ byte, (p.byte ≤ byte ∧ ∀ q ∈ fs.zip starts, stop q ≤ byte) ↔ free.byte ≤ byte := by
  induction fs generalizing p starts with
  | nil =>
    obtain ⟨-, rfl⟩ := Prod.mk.inj run
    exact ⟨inside, by simp⟩
  | cons f fs ih =>
    obtain ⟨start, next, others, rfl, placed, rest⟩ := placements_cons_eq run
    have shape := shapes f List.mem_cons_self
    obtain ⟨first, -, inside', width⟩ := place_startFor shape placed
    obtain ⟨last, ends⟩ := ih inside' (fun g hg => shapes g (List.mem_cons_of_mem f hg)) rest
    have behind : p.byte ≤ start.byte := first ▸ (startFor_isLeast inside shape).1.1
    refine ⟨last, fun byte => ?_⟩
    rw [← ends byte, List.zip_cons_cons, List.forall_mem_cons, stop, width]
    constructor
    · rintro ⟨-, here, others⟩
      exact ⟨here, others⟩
    · rintro ⟨here, others⟩
      exact ⟨by omega, here, others⟩

/-- After a run, a value starts at the first byte behind everything that the run has placed. -/
lemma startFor_isLeast_behind {starts : List Position} (shapes : ∀ f ∈ fs, f.Placeable)
    (run : origin.placements fs = (starts.map some, free)) (shape : f.Placeable) :
    IsLeast {byte | f.MayStart byte ∧ ∀ q ∈ fs.zip starts, stop q ≤ byte}
      (free.startFor f).byte := by
  obtain ⟨partly, ends⟩ := placements_free (Nat.zero_le _) shapes run
  have same : {byte | f.MayStart byte ∧ ∀ q ∈ fs.zip starts, stop q ≤ byte} =
      {byte | free.byte ≤ byte ∧ f.MayStart byte} := by
    refine Set.ext fun byte => ?_
    have first : origin.byte ≤ byte := Nat.zero_le byte
    have behind := (and_iff_right first).symm.trans (ends byte)
    exact (and_congr_right fun _ => behind).trans and_comm
  rw [same]
  exact startFor_isLeast partly shape

/-- A run without failures is one up to any point of it. -/
lemma placements_take {starts : List Position} (run : p.placements fs = (starts.map some, free))
    (i : Nat) : ∃ between, p.placements (fs.take i) = ((starts.take i).map some, between) := by
  induction i generalizing p fs starts with
  | zero => exact ⟨p, rfl⟩
  | succ i ih =>
    cases fs with
    | nil =>
      obtain ⟨none, -⟩ := Prod.mk.inj run
      obtain rfl := List.map_eq_nil_iff.1 none.symm
      exact ⟨p, rfl⟩
    | cons f fs =>
      obtain ⟨start, next, others, rfl, placed, rest⟩ := placements_cons_eq run
      obtain ⟨between, run⟩ := ih rest
      refine ⟨between, ?_⟩
      simp only [List.take_succ_cons, placements, placed, run, List.map_cons]

/-- Each value of a run without failures has been placed behind the values before it. -/
lemma placed_behind_take {starts : List Position} {i : Nat}
    (run : p.placements fs = (starts.map some, free)) (value : fs[i]? = some f)
    (place : starts[i]? = some start) :
    ∃ between next, p.placements (fs.take i) = ((starts.take i).map some, between) ∧
      between.place f = (some start, next) := by
  induction i generalizing p fs starts with
  | zero =>
    cases fs with
    | nil => cases value
    | cons f fs =>
      obtain ⟨start, next, others, rfl, placed, -⟩ := placements_cons_eq run
      cases value
      cases place
      exact ⟨p, next, rfl, placed⟩
  | succ i ih =>
    cases fs with
    | nil => cases value
    | cons g fs =>
      obtain ⟨first, second, others, rfl, placed, rest⟩ := placements_cons_eq run
      obtain ⟨between, next, run, here⟩ := ih rest value place
      refine ⟨between, next, ?_, here⟩
      simp only [List.take_succ_cons, placements, placed, run, List.map_cons]

/-! ## Counting slots -/

lemma slot_lt_of_place (inWord : p.slot < Numeral.bound256)
    (placed : p.place f = (some start, next)) : next.slot < Numeral.bound256 := by
  obtain ⟨aligned, beyond⟩ := place_eq_some placed
  have first : start.slot < Numeral.bound256 := by
    rw [aligned?] at aligned
    split at aligned
    · obtain ⟨slot, counted, rfl⟩ := Option.map_eq_some_iff.1 aligned
      obtain ⟨fits, rfl⟩ := word?_eq_some_iff.1 counted
      exact fits
    · rwa [← Option.some.inj aligned]
  rw [beyond?] at beyond
  split at beyond
  · obtain ⟨slot, counted, rfl⟩ := Option.map_eq_some_iff.1 beyond
    obtain ⟨fits, rfl⟩ := word?_eq_some_iff.1 counted
    exact fits
  · rwa [← Option.some.inj beyond]

lemma slot_lt_of_placements {starts : List Position} (inWord : p.slot < Numeral.bound256)
    (run : p.placements fs = (starts.map some, free)) : free.slot < Numeral.bound256 := by
  induction fs generalizing p starts with
  | nil =>
    obtain ⟨-, rfl⟩ := Prod.mk.inj run
    exact inWord
  | cons f fs ih =>
    obtain ⟨start, next, others, -, placed, rest⟩ := placements_cons_eq run
    exact ih (slot_lt_of_place inWord placed) rest

/-- The slots that are counted up to a position are the fewest that reach up to its byte. -/
lemma slotsBefore?_isLeast (inside : p.offset ≤ slotBytes) (inWord : p.slot < Numeral.bound256) :
    ∃ count, p.slotsBefore? = word? count ∧ IsLeast {n | p.byte ≤ slotBytes * n} count := by
  rw [slotsBefore?]
  split
  · next partly =>
    refine ⟨p.slot + 1, rfl, (?_ : p.byte ≤ _), fun n (reaches : p.byte ≤ _) => ?_⟩
    · simp only [byte, slotBytes] at inside ⊢
      omega
    · simp only [byte, slotBytes] at reaches
      omega
  · next whole =>
    refine ⟨p.slot, (word?_of_lt inWord).symm, (?_ : p.byte ≤ _),
      fun n (reaches : p.byte ≤ _) => ?_⟩
    · simp only [byte]
      omega
    · simp only [byte, slotBytes] at reaches
      omega

/-! ## All values -/

/--
Values that are placed one after another are put where a cursor over bytes would put them:
each one at the first byte behind all earlier ones at which it may start. What is used of a
slot is at most the slot, before each value and in the end, and the slots that are counted in
the end, if a word can count them, are the fewest that hold everything placed.
-/
theorem placements_first_fit {starts : List Position} (shapes : ∀ f ∈ fs, f.Placeable)
    (run : origin.placements fs = (starts.map some, free)) :
    (∀ (i : Nat) (f : Footprint) (start : Position), fs[i]? = some f → starts[i]? = some start →
      start.offset < slotBytes ∧
        IsLeast {byte | f.MayStart byte ∧ ∀ q ∈ (fs.zip starts).take i, stop q ≤ byte}
          start.byte) ∧
      (∀ i, (origin.placements (fs.take i)).2.offset ≤ slotBytes) ∧
      ∃ count, free.slotsBefore? = word? count ∧
        IsLeast {n | ∀ q ∈ fs.zip starts, stop q ≤ slotBytes * n} count := by
  have shapesTake : ∀ i, ∀ f ∈ fs.take i, f.Placeable := fun i f hf =>
    shapes f (List.mem_of_mem_take hf)
  refine ⟨fun i f start value place => ?_, fun i => ?_, ?_⟩
  · obtain ⟨between, next, earlier, placed⟩ := placed_behind_take run value place
    have shape := shapes f (List.mem_of_getElem? value)
    obtain ⟨rfl, within, -⟩ := place_startFor shape placed
    have least := startFor_isLeast_behind (shapesTake i) earlier shape
    rw [List.zip, ← List.take_zipWith, ← List.zip] at least
    exact ⟨within, least⟩
  · obtain ⟨between, earlier⟩ := placements_take run i
    rw [earlier]
    exact (placements_free (Nat.zero_le _) (shapesTake i) earlier).1
  · obtain ⟨partly, ends⟩ := placements_free (Nat.zero_le _) shapes run
    obtain ⟨count, counted, least⟩ :=
      slotsBefore?_isLeast partly (slot_lt_of_placements (by decide) run)
    refine ⟨count, counted, ?_⟩
    have same : {n | ∀ q ∈ fs.zip starts, stop q ≤ slotBytes * n} =
        {n | free.byte ≤ slotBytes * n} := by
      refine Set.ext fun n => ?_
      exact (and_iff_right (Nat.zero_le _)).symm.trans (ends _)
    rw [same]
    exact least

/-- A slot that is filled exactly, a value that does not fit in what is left of the next one,
and a value of 33 bytes with slots of its own, behind which a new slot starts. -/
theorem ledger_values_first_fit :
    let fs := [.packed 20, .packed 12, .packed 9, .packed 30, ⟨33, true⟩, .packed 1]
    let starts : List Position := [⟨0, 0⟩, ⟨0, 20⟩, ⟨1, 0⟩, ⟨2, 0⟩, ⟨3, 0⟩, ⟨5, 0⟩]
    origin.placements fs = (starts.map some, ⟨5, 1⟩) ∧
      IsLeast {byte | (Footprint.packed 30).MayStart byte ∧
        ∀ q ∈ (fs.zip starts).take 3, stop q ≤ byte} 64 ∧
      IsLeast {n | ∀ q ∈ fs.zip starts, stop q ≤ slotBytes * n} 6 := by
  intro fs starts
  have run : origin.placements fs = (starts.map some, ⟨5, 1⟩) := by decide
  have shapes : ∀ f ∈ fs, f.Placeable := by
    simp [fs, Footprint.Placeable, Footprint.packed, slotBytes]
  obtain ⟨each, -, count, counted, least⟩ := placements_first_fit shapes run
  have six : slotsBefore? ⟨5, 1⟩ = some 6 := by decide
  obtain rfl := word?_eq_some (counted.symm.trans six)
  exact ⟨run, (each 3 (.packed 30) ⟨2, 0⟩ rfl rfl).2, least⟩

end Position

end UpgradeSafety
