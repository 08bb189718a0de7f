import UpgradeSafety.Proofs.Packing.Placing

/-!
# Members of a struct keep their places

Where a struct is placed, its members lie as they would in a storage of their own, moved to
the slot where the struct starts. What follows the struct starts at the slot behind the
last one that its members touch, so the recorded size and the members never drift apart.
-/

namespace UpgradeSafety

namespace Position

/-- The position as many slots further on. -/
def shift (slots : Nat) (p : Position) : Position := ⟨slots + p.slot, p.offset⟩

/-- The starts of values placed one after another, none for a value that does not fit, and the
first free position behind them. -/
def placements (p : Position) : List Footprint → List (Option Position) × Position
  | [] => ([], p)
  | f :: rest =>
    let others := (p.place f).2.placements rest
    ((p.place f).1 :: others.1, others.2)

variable {p start next last : Position} {f : Footprint} {fs : List Footprint}

/-! ## One value -/

lemma aligned?_shift (slots : Nat) (h : p.aligned? f = some start)
    (fits : slots + start.slot < Numeral.bound256) :
    (p.shift slots).aligned? f = some (start.shift slots) := by
  rw [aligned?] at h
  split at h
  · next moves =>
    obtain ⟨slot, counted, rfl⟩ := Option.map_eq_some_iff.1 h
    obtain ⟨-, rfl⟩ := word?_eq_some_iff.1 counted
    have moved : (p.shift slots).aligned? f =
        (word? (slots + (p.slot + 1))).map fun slot => ⟨slot, 0⟩ := if_pos moves
    rw [moved, word?_of_lt fits, Option.map_some, shift]
  · next stays =>
    obtain rfl := Option.some.inj h
    exact if_neg stays

lemma beyond?_shift (slots : Nat) (h : start.beyond? f = some next)
    (fits : slots + next.slot < Numeral.bound256) :
    (start.shift slots).beyond? f = some (next.shift slots) := by
  rw [beyond?] at h
  split at h
  · next own =>
    obtain ⟨slot, counted, rfl⟩ := Option.map_eq_some_iff.1 h
    obtain ⟨-, rfl⟩ := word?_eq_some_iff.1 counted
    have moved : (start.shift slots).beyond? f =
        (word? (slots + start.slot + f.slotCount)).map fun slot => ⟨slot, start.offset⟩ :=
      if_pos own
    rw [moved, Nat.add_assoc, word?_of_lt fits, Option.map_some, shift]
  · next shared =>
    obtain rfl := Option.some.inj h
    exact if_neg shared

lemma slot_le_of_place (h : p.place f = (some start, next)) :
    p.slot ≤ start.slot ∧ start.slot ≤ next.slot := by
  obtain ⟨aligned, beyond⟩ := place_eq_some h
  constructor
  · rcases aligned?_eq_some aligned with ⟨-, rfl⟩ | ⟨rfl, -⟩
    · exact Nat.le_succ p.slot
    · exact Nat.le_refl _
  · rcases beyond?_eq_some beyond with ⟨-, rfl⟩ | ⟨-, rfl⟩
    · exact Nat.le_add_right _ _
    · exact Nat.le_refl _

/-- As long as there are slots, a value is placed alike from a position that is moved. -/
lemma place_shift (slots : Nat) (h : p.place f = (some start, next))
    (fits : slots + next.slot < Numeral.bound256) :
    (p.shift slots).place f = (some (start.shift slots), next.shift slots) := by
  obtain ⟨-, forward⟩ := slot_le_of_place h
  obtain ⟨aligned, beyond⟩ := place_eq_some h
  have first := aligned?_shift slots aligned (by omega)
  have behind := beyond?_shift slots beyond fits
  simp only [place, first, behind]

/-! ## Values one after another -/

lemma placeAll_cons_eq_some (h : p.placeAll (f :: fs) = some last) :
    ∃ start next, p.place f = (some start, next) ∧ next.placeAll fs = some last := by
  rw [placeAll] at h
  rcases placed : p.place f with ⟨start | start, next⟩
  · rw [placed] at h
    cases h
  · rw [placed] at h
    exact ⟨start, next, rfl, h⟩

lemma slot_le_of_placeAll (h : p.placeAll fs = some last) : p.slot ≤ last.slot := by
  induction fs generalizing p with
  | nil =>
    obtain rfl := Option.some.inj h
    exact Nat.le_refl _
  | cons f fs ih =>
    obtain ⟨start, next, placed, rest⟩ := placeAll_cons_eq_some h
    have forward := slot_le_of_place placed
    have behind := ih rest
    omega

/-- Values that all fit are placed alike from a position that is moved. -/
lemma placements_shift (slots : Nat) (h : p.placeAll fs = some last)
    (fits : slots + last.slot < Numeral.bound256) :
    ∃ starts : List Position, (p.placements fs).1 = starts.map some ∧
      (p.shift slots).placements fs =
        (starts.map fun q => some (q.shift slots), last.shift slots) := by
  induction fs generalizing p with
  | nil =>
    obtain rfl := Option.some.inj h
    exact ⟨[], rfl, rfl⟩
  | cons f fs ih =>
    obtain ⟨start, next, placed, rest⟩ := placeAll_cons_eq_some h
    obtain ⟨starts, alone, moved⟩ := ih rest
    have forward := slot_le_of_placeAll rest
    have placed' := place_shift slots placed (by omega)
    refine ⟨start :: starts, ?_, ?_⟩
    · simp only [placements, placed, alone, List.map_cons]
    · simp only [placements, placed', moved, List.map_cons]

lemma slotsBefore?_shift (slots : Nat) {count : Nat} (h : last.slotsBefore? = some count)
    (fits : slots + count < Numeral.bound256) :
    last.slot ≤ count ∧ (last.shift slots).slotsBefore? = some (slots + count) := by
  rw [slotsBefore?] at h
  split at h
  · next partly =>
    obtain ⟨-, rfl⟩ := word?_eq_some_iff.1 h
    have moved : (last.shift slots).slotsBefore? = word? (slots + (last.slot + 1)) := if_pos partly
    exact ⟨Nat.le_succ _, moved.trans (word?_of_lt fits)⟩
  · next whole =>
    obtain rfl := Option.some.inj h
    exact ⟨Nat.le_refl _, if_neg whole⟩

/-- A value of whole slots starts at a slot and ends right behind its last one. -/
lemma place_slots {count : Nat} (h : p.place ⟨count * slotBytes, true⟩ = (some start, next)) :
    start.offset = 0 ∧ next = ⟨start.slot + count, 0⟩ ∧ start.slot + count < Numeral.bound256 := by
  obtain ⟨aligned, beyond⟩ := place_eq_some h
  have first : start.offset = 0 := by
    rcases aligned?_eq_some aligned with ⟨-, rfl⟩ | ⟨rfl, first | ⟨shared, -⟩⟩
    · rfl
    · exact first
    · cases shared
  rw [beyond?, if_pos rfl, Footprint.slotCount_slots, first] at beyond
  obtain ⟨slot, counted, rfl⟩ := Option.map_eq_some_iff.1 beyond
  obtain ⟨fits, rfl⟩ := word?_eq_some_iff.1 counted
  exact ⟨first, rfl, fits⟩

/--
Members do not move when they are put into a struct. Wherever the struct is placed, it starts
at the beginning of a slot; each member, placed from there, gets its place in a storage of its
own moved to that slot; all of them fit; and the first free position behind the struct is the
beginning of the slot behind the last one that they touch.
-/
theorem nested_members_keep_places {members : List Footprint} {free : Position}
    (sized : Footprint.struct? members = some f) (placed : free.place f = (some start, next)) :
    ∃ slot behind, start = ⟨slot, 0⟩ ∧ next = ⟨behind, 0⟩ ∧
      (∃ starts : List Position, (origin.placements members).1 = starts.map some ∧
        (placements ⟨slot, 0⟩ members).1 = starts.map fun q => some ⟨slot + q.slot, q.offset⟩) ∧
      (placements ⟨slot, 0⟩ members).2.slotsBefore? = some behind := by
  obtain ⟨last, run, sized⟩ := Option.bind_eq_some_iff.1 sized
  obtain ⟨count, touched, sized⟩ := Option.bind_eq_some_iff.1 sized
  obtain ⟨bytes, counted, rfl⟩ := Option.map_eq_some_iff.1 sized
  obtain ⟨-, rfl⟩ := word?_eq_some_iff.1 counted
  obtain ⟨first, rfl, fits⟩ := place_slots placed
  obtain ⟨atMost, touched'⟩ := slotsBefore?_shift start.slot touched fits
  obtain ⟨starts, alone, moved⟩ := placements_shift start.slot run (by omega)
  have here : origin.shift start.slot = ⟨start.slot, 0⟩ := rfl
  rw [here] at moved
  refine ⟨start.slot, start.slot + count, ?_, rfl, ⟨starts, alone, ?_⟩, ?_⟩
  · rw [← first]
  · rw [moved]
    rfl
  · rw [moved]
    exact touched'

/-- An address and an amount that share a slot, a mapping and a flag, put behind seven bytes of
slot 4: the flag, two slots behind the address in a storage of its own, stays two slots behind. -/
theorem vault_members_keep_places :
    let members := [.packed 20, .packed 12, .word, .packed 1]
    Footprint.struct? members = some ⟨96, true⟩ ∧
      place ⟨4, 7⟩ ⟨96, true⟩ = (some ⟨5, 0⟩, ⟨8, 0⟩) ∧
      (placements ⟨5, 0⟩ members).1 =
        [some ⟨5, 0⟩, some ⟨5, 20⟩, some ⟨6, 0⟩, some ⟨7, 0⟩] ∧
      (placements ⟨5, 0⟩ members).2.slotsBefore? = some 8 := by
  intro members
  have sized : Footprint.struct? members = some ⟨96, true⟩ := by decide
  have placed : place ⟨4, 7⟩ ⟨96, true⟩ = (some ⟨5, 0⟩, ⟨8, 0⟩) := by decide
  obtain ⟨slot, behind, start, next, ⟨starts, alone, moved⟩, touched⟩ :=
    nested_members_keep_places sized placed
  cases start
  cases next
  have relative : starts = [⟨0, 0⟩, ⟨0, 20⟩, ⟨1, 0⟩, ⟨2, 0⟩] :=
    (List.map_inj_right fun _ _ => Option.some.inj).1 (alone.symm.trans (by decide))
  refine ⟨sized, placed, ?_, touched⟩
  rw [moved, relative]
  decide

end Position

end UpgradeSafety
