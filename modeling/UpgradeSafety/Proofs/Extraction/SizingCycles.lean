import Mathlib.Logic.Function.Iterate
import UpgradeSafety.Proofs.Extraction.Mirrored
import UpgradeSafety.Proofs.Extraction.SizeRules

/-!
# How sizing ends

Sizing goes from a type to those that it holds by value. The types around the one that is
being sized are different and have rules, so it never goes deeper than there are rules, with
or without a bound. What it meets inside itself lies on a cycle of the size rules.
-/

namespace UpgradeSafety

open Relation (TransGen)

namespace Sizing

open Registering

variable {rules : Table SizeRule} {enclosing : List TypeId} {id : TypeId} {k : KnownTypes}

/-! ## Sizing without a bound -/

/-- One level of sizing without a bound, which leaves what lies further in to `further`. -/
def level (further : List TypeId → TypeId → Registering Footprint) (enclosing : List TypeId)
    (id : TypeId) : Registering Footprint :=
  withRule (fun cause => cause) enclosing id fun rule => do
    let f ← follow (further (id :: enclosing)) id rule
    modify fun known => known.putFootprint id f
    return f

/-- Size rules are followed alike if what they need is sized alike. -/
lemma follow_mirrors {inv : KnownTypes → Prop} {of' of : TypeId → Registering Footprint}
    {rule : SizeRule}
    (each : ∀ other ∈ rule.needs,
      Mirrors inv (fun cause => cause) (of' other) (of other) fun _ => True) :
    Mirrors inv (fun cause => cause) (follow of' id rule) (follow of id rule) fun _ => True := by
  have sizes : ∀ size, Mirrors inv (fun cause => cause) (sized id size) (sized id size)
      fun _ => True := by
    intro size
    cases size with
    | none => exact mirrors_throw (.oversizedType id) rfl
    | some f => exact mirrors_pure trivial
  cases rule with
  | known f => exact mirrors_pure trivial
  | sameAs other => exact each other List.mem_cons_self
  | fixedArray element length =>
    exact mirrors_bind (each element List.mem_cons_self) fun g _ => sizes _
  | struct members => exact mirrors_bind (mirrors_mapM members each) fun gs _ => sizes _

/-- With more levels, or more fuel, than there are rules left, nothing depends on how many. -/
lemma levels_mirror (further : List TypeId → TypeId → Registering Footprint) {levels fuel : Nat}
    (around : Encloses rules enclosing id) (enough : rules.size < levels + enclosing.length)
    (enough' : rules.size < fuel + enclosing.length) :
    Mirrors (fun k => k.sizeRules = rules) (fun cause => cause)
      (level^[levels] further enclosing id) (footprintInside fuel enclosing id)
      fun _ => True := by
  have room := around.length_le
  induction levels generalizing fuel enclosing id with
  | zero => omega
  | succ levels ih =>
    cases fuel with
    | zero => omega
    | succ fuel =>
      rw [Function.iterate_succ_apply', footprintInside]
      refine withRule_mirrors rfl rfl (fun _ _ _ _ => trivial) fun outside k same rule ruled => ?_
      refine mirrors_bind (follow_mirrors fun other mem => ?_) fun f _ => ?_
      · have around' := around.inner outside ⟨rule, same ▸ ruled, mem⟩
        refine ih around' ?_ ?_ around'.length_le
        · rw [List.length_cons]
          omega
        · rw [List.length_cons]
          omega
      · exact mirrors_bind (mirrors_modify fun _ same => same) fun _ _ => mirrors_pure trivial

/-- However many levels more than there are rules sizing has, it ends in the same way. -/
lemma levels_eq_footprint (further : List TypeId → TypeId → Registering Footprint) {levels : Nat}
    (enough : k.sizeRules.size < levels) (id : TypeId) :
    (level^[levels] further [] id).run k = (footprint id).run k := by
  have same := (levels_mirror further (.start k.sizeRules id) enough
    (Nat.lt_succ_self k.sizeRules.size) k rfl).1
  rw [same]
  change _ = (footprintInside (k.sizeRules.size + 1) [] id).run k
  cases (footprintInside (k.sizeRules.size + 1) [] id).run k <;> rfl

/-! ## Types that hold themselves -/

/-- If an error is that a type contains itself, the size rules lead from it to itself. -/
def NamesCycle (rules : Table SizeRule) (cause : ResolutionError) : Prop :=
  ∀ x, cause = .selfContainingType x → TransGen (Needs rules) x x

lemma follow_cycle {of : TypeId → Registering Footprint} {rule : SizeRule}
    (each : ∀ other ∈ rule.needs, ∀ k, k.sizeRules = rules →
      Leads (of other) k (fun _ after => after.sizeRules = rules) (NamesCycle rules))
    (same : k.sizeRules = rules) :
    Leads (follow of id rule) k (fun _ after => after.sizeRules = rules) (NamesCycle rules) := by
  have sizes : ∀ size k, k.sizeRules = rules →
      Leads (sized id size) k (fun _ after => after.sizeRules = rules) (NamesCycle rules) := by
    intro size k same
    cases size with
    | none => rintro _ ⟨⟩
    | some f => exact same
  cases rule with
  | known f => exact same
  | sameAs other => exact each other List.mem_cons_self k same
  | fixedArray element length =>
    simp only [follow, leads_bind]
    exact (each element List.mem_cons_self k same).imp fun g after same => sizes _ after same
  | struct members =>
    simp only [follow, leads_bind]
    refine Leads.imp (leads_mapM of members (fun _ _ after => after.sizeRules = rules)
      (fun done member rest whole _ after same => ?_) same) fun gs after same => sizes _ after same
    exact each member (by simp [SizeRule.needs, whole]) after same

/-- A type that is met inside itself is needed by the types that it needs. -/
lemma footprintInside_cycle {fuel : Nat} (around : Encloses rules enclosing id)
    (enough : rules.size < fuel + enclosing.length) (same : k.sizeRules = rules) :
    Leads (footprintInside fuel enclosing id) k (fun _ after => after.sizeRules = rules)
      (NamesCycle rules) := by
  have room := around.length_le
  induction fuel generalizing enclosing id k with
  | zero => omega
  | succ fuel ih =>
    refine leads_footprintInside (fun _ _ => same) (fun inside x named => ?_)
      (fun _ _ => nofun) fun rule _ outside ruled => ?_
    · cases named
      exact around.needed id inside
    · refine (follow_cycle (fun other mem k' same' => ?_) same).imp fun f after same => same
      have around' := around.inner outside ⟨rule, same ▸ ruled, mem⟩
      refine ih around' ?_ same' around'.length_le
      rw [List.length_cons]
      omega

lemma footprint_cycle (id : TypeId) (k : KnownTypes) :
    Leads (footprint id) k (fun _ after => after.sizeRules = k.sizeRules)
      (NamesCycle k.sizeRules) := by
  rw [footprint]
  simp only [leads_bind, leads_get]
  exact footprintInside_cycle (.start k.sizeRules id) (Nat.lt_succ_self k.sizeRules.size) rfl

lemma sizeAll_cycle (ids : List TypeId) (same : k.sizeRules = rules) :
    Leads (sizeAll ids) k (fun _ _ => True) (NamesCycle rules) := by
  induction ids generalizing k with
  | nil => trivial
  | cons id ids ih =>
    have step : sizeAll (id :: ids) = (do discard (footprint id); sizeAll ids) := rfl
    subst same
    rw [step, leads_bind, leads_discard]
    exact (footprint_cycle id k).imp fun f after same => ih same

end Sizing

end UpgradeSafety
