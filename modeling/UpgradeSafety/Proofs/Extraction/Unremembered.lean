import UpgradeSafety.Proofs.Outcomes
import UpgradeSafety.Proofs.Extraction.SizeRules

/-!
# Sizing without remembering

The footprint of a type by its size rule alone, where what a type holds is sized anew each time it
is met. As long as the footprints that are remembered follow from the rules, sizing ends as it does
without them: it gives the same footprint, or fails in the same way.
-/

namespace UpgradeSafety

namespace Sizing

/-- A footprint, unless the type `id` is too large to have one. -/
def roomFor (id : TypeId) : Option Footprint → Except ResolutionError Footprint
  | some f => .ok f
  | none => .error (.oversizedType id)

/-- What a size rule gives for `id`, where `of` gives the footprints of other types. -/
def outcome (of : TypeId → Except ResolutionError Footprint) (id : TypeId) :
    SizeRule → Except ResolutionError Footprint
  | .known f => .ok f
  | .sameAs other => of other
  | .fixedArray element length => do roomFor id ((← of element).fixedArray? length)
  | .struct members => do roomFor id (Footprint.struct? (← members.mapM of))

/-- The footprint of a type that the `enclosing` types hold by value, by the rules alone. -/
def plain (rules : Table SizeRule) : Nat → List TypeId → TypeId → Except ResolutionError Footprint
  | fuel, enclosing, id =>
    if enclosing.contains id then .error (.selfContainingType id)
    else
      match rules.find? id with
      | none => .error (.unsupportedType id)
      | some rule =>
        match fuel with
        | 0 => .error (.selfContainingType id)
        | fuel + 1 => outcome (plain rules fuel (id :: enclosing)) id rule

/-- The footprint of a type by the rules alone. -/
def alone (rules : Table SizeRule) (id : TypeId) : Except ResolutionError Footprint :=
  plain rules (rules.size + 1) [] id

variable {rules : Table SizeRule} {enclosing : List TypeId} {id : TypeId} {f : Footprint}
  {fuel : Nat} {rule : SizeRule}

lemma plain_inside (inside : id ∈ enclosing) :
    plain rules fuel enclosing id = .error (.selfContainingType id) := by
  unfold plain
  rw [if_pos (List.contains_iff_mem.2 inside)]

lemma plain_unknown (outside : id ∉ enclosing) (none : rules.find? id = none) :
    plain rules fuel enclosing id = .error (.unsupportedType id) := by
  unfold plain
  rw [if_neg (by simpa using outside), none]

lemma plain_ruled (outside : id ∉ enclosing) (ruled : rules.find? id = some rule) :
    plain rules (fuel + 1) enclosing id =
      outcome (plain rules fuel (id :: enclosing)) id rule := by
  conv => lhs; unfold plain
  rw [if_neg (by simpa using outside), ruled]

lemma Encloses.outside (around : Encloses rules enclosing id) (has : HasFootprint rules id f) :
    id ∉ enclosing := fun mem => has.not_cyclic (around.needed id mem)

/-- A type with a footprint is sized by its rule, and there is room for what it needs. -/
lemma plain_of_rule (has : HasFootprint rules id f) (ruled : rules.find? id = some rule)
    (around : Encloses rules enclosing id) (enough : rules.size < fuel + enclosing.length)
    (gives : ∀ fuel, (∀ other ∈ rule.needs, Encloses rules (id :: enclosing) other) →
      rules.size < fuel + (id :: enclosing).length →
        outcome (plain rules fuel (id :: enclosing)) id rule = .ok f) :
    plain rules fuel enclosing id = .ok f := by
  have room := around.length_le
  cases fuel with
  | zero => omega
  | succ fuel =>
    have outside := around.outside has
    rw [plain_ruled outside ruled]
    refine gives fuel (fun other mem => around.inner outside ⟨rule, ruled, mem⟩) ?_
    rw [List.length_cons]
    omega

/-- The footprint that follows from the rules is given, whatever is around the type. -/
lemma plain_of_hasFootprint (has : HasFootprint rules id f) (around : Encloses rules enclosing id)
    (enough : rules.size < fuel + enclosing.length) : plain rules fuel enclosing id = .ok f := by
  induction has generalizing fuel enclosing with
  | known ruled => exact plain_of_rule (.known ruled) ruled around enough fun _ _ _ => rfl
  | sameAs ruled inner ih =>
    refine plain_of_rule (.sameAs ruled inner) ruled around enough fun fuel around' enough' => ?_
    exact ih (around' _ List.mem_cons_self) enough'
  | fixedArray ruled inner size ih =>
    refine plain_of_rule (.fixedArray ruled inner size) ruled around enough
      fun fuel around' enough' => ?_
    rw [outcome, ih (around' _ List.mem_cons_self) enough']
    exact congrArg (roomFor _) size
  | @struct _ members fs _ ruled lengths inner size ih =>
    refine plain_of_rule (.struct ruled lengths inner size) ruled around enough
      fun fuel around' enough' => ?_
    rw [outcome, mapM_of_forall₂ (List.forall₂_iff_zip.2 ⟨lengths, fun {m g} mem => ?_⟩)]
    · exact congrArg (roomFor _) size
    · exact ih (m, g) mem (around' m (List.of_mem_zip mem).1) enough'

/-! ## Remembered footprints -/

open Registering

variable {α β : Type}

/-- From types met so far whose footprints follow from the rules, a step ends as it would alone. -/
def EndsAs (rules : Table SizeRule) (m : Registering α) (x : Except ResolutionError α) : Prop :=
  ∀ k, Sized k → k.sizeRules = rules →
    Leads m k (fun a after => x = .ok a ∧ Sized after ∧ after.sizeRules = rules)
      (fun cause => x = .error cause)

lemma endsAs_pure (a : α) : EndsAs rules (pure a) (.ok a) :=
  fun _ follows same => ⟨rfl, follows, same⟩

lemma EndsAs.bind {m : Registering α} {x : Except ResolutionError α} {next : α → Registering β}
    {next' : α → Except ResolutionError β} (first : EndsAs rules m x)
    (rest : ∀ a, EndsAs rules (next a) (next' a)) : EndsAs rules (m >>= next) (x >>= next') := by
  intro k follows same
  rw [leads_bind]
  refine (first k follows same).mono (fun a after h => ?_) fun cause failed => ?_
  · obtain ⟨rfl, follows', same'⟩ := h
    exact rest a after follows' same'
  · rw [failed]
    rfl

lemma EndsAs.discard {m : Registering α} {x : Except ResolutionError α} (h : EndsAs rules m x) :
    EndsAs rules (discard m) (discard x) := by
  intro k follows same
  rw [leads_discard]
  refine (h k follows same).mono (fun a after ended => ?_) fun cause failed => ?_
  · rw [ended.1]
    exact ⟨rfl, ended.2⟩
  · rw [failed]
    rfl

lemma mapM_endsAs {step : β → Registering α} {step' : β → Except ResolutionError α} {l : List β}
    (each : ∀ b ∈ l, EndsAs rules (step b) (step' b)) :
    EndsAs rules (l.mapM step) (l.mapM step') := by
  induction l with
  | nil => exact endsAs_pure []
  | cons b l ih =>
    rw [List.mapM_cons, List.mapM_cons]
    refine (each b List.mem_cons_self).bind fun a => ?_
    exact (ih fun c mem => each c (.tail _ mem)).bind fun as => endsAs_pure (a :: as)

lemma roomFor_endsAs (size : Option Footprint) :
    EndsAs rules (sized id size) (roomFor id size) := by
  cases size with
  | none => exact fun _ _ _ => rfl
  | some f => exact endsAs_pure f

lemma follow_endsAs {of : TypeId → Registering Footprint}
    {of' : TypeId → Except ResolutionError Footprint}
    (each : ∀ other ∈ rule.needs, EndsAs rules (of other) (of' other)) :
    EndsAs rules (follow of id rule) (outcome of' id rule) := by
  cases rule with
  | known f => exact endsAs_pure f
  | sameAs other => exact each other List.mem_cons_self
  | fixedArray element length =>
    exact (each element List.mem_cons_self).bind fun g => roomFor_endsAs _
  | struct members => exact (mapM_endsAs each).bind fun fs => roomFor_endsAs _

/-- What is remembered follows from the rules in any case. -/
lemma endsAs_of_gives {x : Except ResolutionError Footprint}
    (gives : ∀ k, Sized k → k.sizeRules = rules →
      Leads (footprintInside fuel enclosing id) k (fun f _ => x = .ok f)
        (fun cause => x = .error cause)) :
    EndsAs rules (footprintInside fuel enclosing id) x := by
  intro k follows same
  have finds := footprintInside_finds fuel enclosing id follows
  refine ((gives k follows same).and finds).mono (fun f after h => ?_) fun cause h => h.1
  exact ⟨h.1, h.2.sized, h.2.more.rules.trans same⟩

/-- Sizing ends as it does by the rules alone, whatever has been remembered on the way. -/
lemma footprintInside_endsAs (around : Encloses rules enclosing id)
    (enough : rules.size < fuel + enclosing.length) :
    EndsAs rules (footprintInside fuel enclosing id) (plain rules fuel enclosing id) := by
  have room := around.length_le
  induction fuel generalizing enclosing id with
  | zero => omega
  | succ fuel ih =>
    refine endsAs_of_gives fun k follows same => ?_
    refine leads_footprintInside (fun f size => ?_) plain_inside
      (fun outside none => plain_unknown outside (same ▸ none)) fun rule _ outside ruled => ?_
    · -- what is remembered follows from the rules, and so it is found without a memory
      exact plain_of_hasFootprint (same ▸ follows.follows size) around enough
    · rw [same] at ruled
      rw [plain_ruled outside ruled]
      refine Leads.imp (follow_endsAs (fun other mem => ?_) k follows same) fun f _ h => h.1
      have around' := around.inner outside ⟨rule, ruled, mem⟩
      refine ih around' ?_ around'.length_le
      rw [List.length_cons]
      omega

lemma footprint_endsAs (id : TypeId) : EndsAs rules (footprint id) (alone rules id) := by
  intro k follows same
  rw [footprint]
  simp only [leads_bind, leads_get]
  subst same
  exact footprintInside_endsAs (.start k.sizeRules id) (Nat.lt_succ_self _) k follows rfl

/-- Types one after another are sized as they would be alone, up to the first one that fails. -/
lemma sizeAll_endsAs (ids : List TypeId) :
    EndsAs rules (sizeAll ids) (ids.forM fun id => discard (alone rules id)) := by
  induction ids with
  | nil => exact endsAs_pure ()
  | cons id ids ih =>
    have step : sizeAll (id :: ids) = (do discard (footprint id); sizeAll ids) := rfl
    rw [step]
    exact (footprint_endsAs id).discard.bind fun _ => ih

/-- All types can be sized whose footprints follow from the rules. -/
lemma sizeAll_succeeds {ids : List TypeId} (each : ∀ id ∈ ids, ∃ f, HasFootprint rules id f)
    {k : KnownTypes} (follows : Sized k) (same : k.sizeRules = rules) :
    Leads (sizeAll ids) k (fun _ _ => True) (fun _ => False) := by
  have fine : (ids.forM fun id => discard (alone rules id)) = .ok () := by
    induction ids with
    | nil => rfl
    | cons id ids ih =>
      obtain ⟨f, has⟩ := each id List.mem_cons_self
      change (discard (alone rules id) >>= fun _ => ids.forM fun id => discard (alone rules id)) = _
      rw [alone, plain_of_hasFootprint has (.start rules id) (Nat.lt_succ_self _)]
      exact ih fun other mem => each other (.tail _ mem)
  refine (sizeAll_endsAs ids k follows same).mono (fun _ _ _ => trivial) fun cause failed => ?_
  rw [fine] at failed
  cases failed

end Sizing

end UpgradeSafety
