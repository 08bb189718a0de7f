import UpgradeSafety.Proofs.Extraction.Layouts
import UpgradeSafety.Proofs.Extraction.Unremembered

/-!
# The order of leftover types

The types that are left without a size when the variables of a contract have been laid out may be
sized in any order. If this succeeds it gives the same types with the same sizes in every order. It
fails with the error of the first type in the order that has no size, so it fails in every order
alike just if all of these types have the same error.
-/

namespace UpgradeSafety

namespace Extraction

open Registering

/-! ## Types with their sizes -/

/-- Once all types are sized, it is known what is said of them. -/
lemma AllSized.types_eq {ds : Declarations} {c : Contract} {k known known' : KnownTypes}
    (settled : Settled ds c k) (all : AllSized k known) (all' : AllSized k known') :
    known.types = known'.types := by
  have same (id : TypeId) : (known.types.find? id).map TypeItem.exceptSize =
      (known'.types.find? id).map TypeItem.exceptSize :=
    (all.more.entries id).trans (all'.more.entries id).symm
  refine Table.ext_find? fun id => ?_
  have both := same id
  cases found : known.types.find? id with
  | none =>
    rw [found, Option.map_none, eq_comm, Option.map_eq_none_iff] at both
    exact both.symm
  | some item =>
    rw [found, Option.map_some, eq_comm, Option.map_eq_some_iff] at both
    obtain ⟨item', found', alike⟩ := both
    -- both sizes follow from the rules, which sizing does not change
    obtain ⟨before, entered, _⟩ := all.more.item_of_after found
    obtain ⟨rule, ruled, _⟩ := settled.described.accounted entered (fun h => h)
    obtain ⟨f, size⟩ := all.complete ruled
    obtain ⟨g, size'⟩ := all'.complete ruled
    have follows := all.sized.follows size
    have follows' := all'.sized.follows size'
    rw [all.more.rules] at follows
    rw [all'.more.rules] at follows'
    have bytes : item.numberOfBytes = item'.numberOfBytes := by
      rw [all.sized.bytes size found, all'.sized.bytes size' found', follows.unique follows']
    rw [found', TypeItem.eq_of_exceptSize alike.symm bytes]

/-- The types with their sizes, when those without one have been sized in some order. -/
def finished (k : KnownTypes) (order : List TypeId) : Except ResolutionError (Table TypeItem) :=
  ((Sizing.sizeAll order).run k).map fun r => r.2.types

/-- The variables of a contract have been laid out, and the extraction has come this far. -/
def LaidOut (ds : Declarations) (decode : String → String) (c : Contract) (p : Progress) : Prop :=
  ∃ bases, ds.lineage c = .ok bases ∧
    addVariables ds decode (ds.registrationFuel c) (variablesOf bases) .start = .ok p

variable {ds : Declarations} {decode : String → String} {c : Contract} {p : Progress}
  {k : KnownTypes} {order order' : List TypeId} {cause : ResolutionError}

lemma LaidOut.settled (laidOut : LaidOut ds decode c p) : Settled ds c p.known := by
  obtain ⟨bases, lineage, placed⟩ := laidOut
  have start : Settled ds c Progress.start.known := ⟨.empty, .empty⟩
  exact (addVariables_settled (Declarations.uses_variable lineage) start placed).1

/-- An extraction that has come so far ends as its leftover types do. -/
lemma LaidOut.layout_eq (laidOut : LaidOut ds decode c p) :
    layout ds decode c = (located (decode c.src) (finished p.known p.known.withoutSize)).map
      fun types => ⟨p.items, types⟩ := by
  obtain ⟨bases, lineage, placed⟩ := laidOut
  rw [Extraction.layout_eq, lineage]
  simp only [placed, finished]
  cases (Sizing.sizeAll p.known.withoutSize).run p.known <;> rfl

/-! ## Failing types -/

/-- The footprint of a type if it is the first one that is sized. -/
def sizedFirst (k : KnownTypes) (id : TypeId) : Except ResolutionError Footprint :=
  ((Sizing.footprint id).run k).map Prod.fst

lemma sizedFirst_eq (sized : Sized k) (id : TypeId) :
    sizedFirst k id = Sizing.alone k.sizeRules id := by
  have ends := Sizing.footprint_endsAs id k sized rfl
  rw [sizedFirst]
  cases ran : (Sizing.footprint id).run k with
  | ok result => exact (leads_of_ok ends ran).1.symm
  | error e => exact (leads_of_error ends ran).symm

/-- Going through the types in order, the first one that cannot be sized has this error. -/
inductive FailsFirst (x : TypeId → Except ResolutionError Footprint) :
    List TypeId → ResolutionError → Prop where
  | here {id : TypeId} {order : List TypeId} {cause : ResolutionError}
      (failed : x id = .error cause) : FailsFirst x (id :: order) cause
  | later {id : TypeId} {order : List TypeId} {cause : ResolutionError} {f : Footprint}
      (fine : x id = .ok f) (rest : FailsFirst x order cause) : FailsFirst x (id :: order) cause

variable {x : TypeId → Except ResolutionError Footprint} {id : TypeId}

lemma FailsFirst.exists_mem (fails : FailsFirst x order cause) :
    ∃ id ∈ order, x id = .error cause := by
  induction fails with
  | here failed => exact ⟨_, List.mem_cons_self, failed⟩
  | later _ _ ih =>
    obtain ⟨id, mem, failed⟩ := ih
    exact ⟨id, .tail _ mem, failed⟩

lemma exists_failsFirst (mem : id ∈ order) (failed : x id = .error cause) :
    ∃ first, FailsFirst x order first := by
  induction order with
  | nil => cases mem
  | cons other order ih =>
    cases ends : x other with
    | error e => exact ⟨e, .here ends⟩
    | ok f =>
      cases mem with
      | head => rw [failed] at ends; cases ends
      | tail _ mem =>
        obtain ⟨first, fails⟩ := ih mem
        exact ⟨first, .later ends fails⟩

lemma forM_eq_error_iff :
    (order.forM fun id => discard (x id)) = .error cause ↔ FailsFirst x order cause := by
  induction order with
  | nil => exact ⟨nofun, nofun⟩
  | cons id order ih =>
    change (discard (x id) >>= fun _ => order.forM fun id => discard (x id)) = _ ↔ _
    cases ends : x id with
    | error e =>
      constructor
      · rintro ⟨⟩
        exact .here ends
      · rintro (failed | ⟨fine, _⟩)
        · cases ends.symm.trans failed
          rfl
        · rw [ends] at fine
          cases fine
    | ok f =>
      refine Iff.trans ih ⟨.later ends, ?_⟩
      rintro (failed | ⟨_, rest⟩)
      · rw [ends] at failed
        cases failed
      · exact rest

lemma finished_eq_error_iff (sized : Sized k) :
    finished k order = .error cause ↔ FailsFirst (sizedFirst k) order cause := by
  have ends := Sizing.sizeAll_endsAs order k sized rfl
  rw [funext (sizedFirst_eq sized), ← forM_eq_error_iff, finished]
  cases ran : (Sizing.sizeAll order).run k with
  | ok result =>
    rw [(leads_of_ok ends ran).1]
    exact ⟨nofun, nofun⟩
  | error e =>
    rw [leads_of_error ends ran]
    exact Iff.of_eq (by simp [Except.map])

/-! ## Orders -/

/-- An order in which the types without a size may be sized. -/
def LeftoverOrder (k : KnownTypes) (order : List TypeId) : Prop := order.Perm k.withoutSize

lemma exists_leftoverOrder (mem : id ∈ k.withoutSize) :
    ∃ order, LeftoverOrder k (id :: order) :=
  ⟨_, (List.perm_cons_erase mem).symm⟩

variable {types : Table TypeItem}

lemma allSized_of_finished (settled : Settled ds c k) (any : LeftoverOrder k order)
    (ran : finished k order = .ok types) : ∃ known, AllSized k known ∧ known.types = types := by
  rw [finished] at ran
  cases sizing : (Sizing.sizeAll order).run k with
  | error cause =>
    rw [sizing] at ran
    cases ran
  | ok result =>
    rw [sizing] at ran
    cases ran
    exact ⟨result.2, allSized_of_order settled.sized (fun _ mem => any.mem_iff.2 mem) sizing, rfl⟩

/-- If sizing succeeds in one order it does in every other, with the same sizes. -/
lemma finished_ok (settled : Settled ds c k) (any : LeftoverOrder k order)
    (any' : LeftoverOrder k order') (ran : finished k order = .ok types) :
    finished k order' = .ok types := by
  cases ran' : finished k order' with
  | error cause =>
    -- the type that fails is in the first order too
    obtain ⟨id, mem, failed⟩ := ((finished_eq_error_iff settled.sized).1 ran').exists_mem
    obtain ⟨first, fails⟩ := exists_failsFirst ((any'.trans any.symm).mem_iff.1 mem) failed
    rw [(finished_eq_error_iff settled.sized).2 fails] at ran
    cases ran
  | ok types' =>
    obtain ⟨known, all, rfl⟩ := allSized_of_finished settled any ran
    obtain ⟨known', all', rfl⟩ := allSized_of_finished settled any' ran'
    exact congrArg Except.ok (all'.types_eq settled all)

/-- Sizing the types that are left ends in the same way in all orders. -/
def OrderIndependent (k : KnownTypes) : Prop :=
  ∀ order order', LeftoverOrder k order → LeftoverOrder k order' →
    finished k order = finished k order'

lemma orderIndependent_iff (settled : Settled ds c k) : OrderIndependent k ↔
    ∀ id ∈ k.withoutSize, ∀ id' ∈ k.withoutSize, ∀ cause cause',
      sizedFirst k id = .error cause → sizedFirst k id' = .error cause' → cause = cause' := by
  have fails {order : List TypeId} {cause : ResolutionError} :
      finished k order = .error cause ↔ FailsFirst (sizedFirst k) order cause :=
    finished_eq_error_iff settled.sized
  constructor
  · -- each of the two types comes first in some order
    intro alike id mem id' mem' cause cause' failed failed'
    obtain ⟨order, any⟩ := exists_leftoverOrder mem
    obtain ⟨order', any'⟩ := exists_leftoverOrder mem'
    have same := alike _ _ any any'
    rw [fails.2 (.here failed), fails.2 (.here failed')] at same
    exact Except.error.inj same
  · intro one order order' any any'
    cases ran : finished k order with
    | ok types => exact (finished_ok settled any any' ran).symm
    | error cause =>
      cases ran' : finished k order' with
      | ok types =>
        rw [finished_ok settled any' any ran'] at ran
        cases ran
      | error cause' =>
        obtain ⟨id, mem, failed⟩ := (fails.1 ran).exists_mem
        obtain ⟨id', mem', failed'⟩ := (fails.1 ran').exists_mem
        exact congrArg Except.error
          (one id (any.mem_iff.1 mem) id' (any'.mem_iff.1 mem') cause cause' failed failed')

/--
When the variables of a contract have been laid out, the extraction ends as the sizing of the
leftover types does. If this succeeds in one order of theirs it gives the same types with the same
sizes in every order. It fails with the error of the first type in the order that cannot be sized,
and so it ends alike in all orders exactly if no two of these types have different errors.
-/
theorem leftovers_sized_in_order (laidOut : LaidOut ds decode c p) :
    layout ds decode c = (located (decode c.src) (finished p.known p.known.withoutSize)).map
        (fun types => ⟨p.items, types⟩) ∧
      (∀ order order' types, LeftoverOrder p.known order → LeftoverOrder p.known order' →
        finished p.known order = .ok types → finished p.known order' = .ok types) ∧
      (∀ order cause,
        finished p.known order = .error cause ↔ FailsFirst (sizedFirst p.known) order cause) ∧
      (OrderIndependent p.known ↔
        ∀ id ∈ p.known.withoutSize, ∀ id' ∈ p.known.withoutSize, ∀ cause cause',
          sizedFirst p.known id = .error cause → sizedFirst p.known id' = .error cause' →
            cause = cause') := by
  have settled := laidOut.settled
  refine ⟨laidOut.layout_eq, ?_, ?_, orderIndependent_iff settled⟩
  · intro order order' types any any' ran
    exact finished_ok settled any any' ran
  · intro order cause
    exact finished_eq_error_iff settled.sized

/-! ### Structs behind a mapping that hold themselves -/

/-- Whether the variables of a contract can be laid out so that a check passes. -/
def laysOutWith (ds : Declarations) (decode : String → String) (c : Contract)
    (check : Progress → Bool) : Bool :=
  match ds.lineage c with
  | .error _ => false
  | .ok bases =>
    match addVariables ds decode (ds.registrationFuel c) (variablesOf bases) .start with
    | .error _ => false
    | .ok p => check p

lemma laidOut_of_check (ds : Declarations) (decode : String → String) (c : Contract)
    (check : Progress → Bool) (h : laysOutWith ds decode c check = true) :
    ∃ p, LaidOut ds decode c p ∧ check p = true := by
  rw [laysOutWith] at h
  cases lineage : ds.lineage c with
  | error cause => simp [lineage] at h
  | ok bases =>
    simp only [lineage] at h
    cases placed : addVariables ds decode (ds.registrationFuel c) (variablesOf bases) .start with
    | error e => simp [placed] at h
    | ok p => exact ⟨p, ⟨bases, lineage, placed⟩, by simpa [placed] using h⟩

end Extraction

/-- A contract with a mapping to structs. -/
def linksContract : Contract :=
  ⟨10, "Links", [10], [.variable (plainVariable 11 "links"
    (.mapping 12 (elementaryType 13 "uint256") (structType 14 1 "Left" "Left")
      ⟨some "t_mapping$_t_uint256_$_t_struct$_Left_$1_storage_$",
        some "mapping(uint256 => struct Left)"⟩))], ""⟩

/-- The struct holds itself. -/
def loopedProgram : Declarations :=
  ⟨[.struct ⟨1, "Left", some "Left", [plainVariable 2 "left" (structType 3 1 "Left" "Left")], ""⟩,
    .contract linksContract]⟩

/-- The struct holds another one, which holds it in turn. -/
def crossedProgram : Declarations :=
  ⟨[.struct ⟨1, "Left", some "Left",
      [plainVariable 2 "right" (structType 3 4 "Right" "Right")], ""⟩,
    .struct ⟨4, "Right", some "Right",
      [plainVariable 5 "left" (structType 6 1 "Left" "Left")], ""⟩,
    .contract linksContract]⟩

namespace Extraction

theorem looped_ends_alike : ∃ p, LaidOut loopedProgram id linksContract p ∧
    p.known.withoutSize = ["t_struct(Left)storage", "t_uint256"] ∧ OrderIndependent p.known := by
  obtain ⟨p, laidOut, check⟩ := laidOut_of_check loopedProgram id linksContract
    (fun p => p.known.withoutSize = ["t_struct(Left)storage", "t_uint256"] ∧
      sizedFirst p.known "t_struct(Left)storage" =
        .error (.selfContainingType "t_struct(Left)storage") ∧
      sizedFirst p.known "t_uint256" = .ok (.packed 32)) (by decide +kernel)
  obtain ⟨left, loop, fine⟩ := of_decide_eq_true check
  have one : ∀ id ∈ p.known.withoutSize, ∀ cause, sizedFirst p.known id = .error cause →
      cause = .selfContainingType "t_struct(Left)storage" := by
    intro id mem cause failed
    rw [left] at mem
    rcases List.mem_cons.1 mem with rfl | mem
    · exact Except.error.inj (failed.symm.trans loop)
    · rw [List.mem_singleton.1 mem, fine] at failed
      cases failed
  refine ⟨p, laidOut, left, (leftovers_sized_in_order laidOut).2.2.2.2 ?_⟩
  intro id mem id' mem' cause cause' failed failed'
  exact (one id mem cause failed).trans (one id' mem' cause' failed').symm

/-- Of two structs that hold each other, the first one in the order is reported. -/
theorem crossed_ends_unlike : ∃ p, LaidOut crossedProgram id linksContract p ∧
    ∃ order order', LeftoverOrder p.known order ∧ LeftoverOrder p.known order' ∧
      finished p.known order = .error (.selfContainingType "t_struct(Left)storage") ∧
      finished p.known order' = .error (.selfContainingType "t_struct(Right)storage") := by
  obtain ⟨p, laidOut, check⟩ := laidOut_of_check crossedProgram id linksContract
    (fun p =>
      p.known.withoutSize = ["t_struct(Left)storage", "t_struct(Right)storage", "t_uint256"] ∧
      finished p.known ["t_struct(Left)storage", "t_struct(Right)storage", "t_uint256"] =
        .error (.selfContainingType "t_struct(Left)storage") ∧
      finished p.known ["t_struct(Right)storage", "t_struct(Left)storage", "t_uint256"] =
        .error (.selfContainingType "t_struct(Right)storage")) (by decide +kernel)
  obtain ⟨left, first, second⟩ := of_decide_eq_true check
  refine ⟨p, laidOut, _, _, ?_, ?_, first, second⟩
  · rw [LeftoverOrder, left]
  · rw [LeftoverOrder, left]
    exact .swap _ _ _

end Extraction

end UpgradeSafety
