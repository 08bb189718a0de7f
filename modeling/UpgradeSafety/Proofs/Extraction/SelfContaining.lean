import Mathlib.Data.Fintype.Card
import Mathlib.Data.Set.Finite.Basic
import Mathlib.Order.WellFounded
import UpgradeSafety.Proofs.Compilation.Additions
import UpgradeSafety.Proofs.Extraction.Apart
import UpgradeSafety.Proofs.Extraction.Complete
import UpgradeSafety.Proofs.Extraction.Origins
import UpgradeSafety.Proofs.Extraction.SizingCycles

/-!
# Types that contain themselves

The values of a struct, of an array of fixed length and of a named value type hold those of
the types inside, the values of mappings and of dynamic arrays do not. An extraction that does
not fail for another reason fails exactly if an annotation in use holds itself in this way, as
far as annotations with one id say the same and the lengths of arrays are read as declared.
-/

namespace UpgradeSafety

open Relation (TransGen)

/-! ## Holding by value -/

/-- Whether values hold those of the types inside, where `dynamic` tells which arrays are. -/
def TypeName.inPlace (dynamic : TypeName → Bool) : TypeName → Bool
  | .mapping .. => false
  | .array i element d => !dynamic (.array i element d)
  | _ => true

/-- Whether the compiler's identifier of an array is that of a dynamic one. -/
def TypeName.declaredDynamic (t : TypeName) : Bool :=
  t.description.identifier.any fun raw =>
    "$dyn_storage".toList.isSuffixOf raw.toList || "$dyn_storage_ptr".toList.isSuffixOf raw.toList

namespace Declarations

/-- Whether the length read from the id of an array is that of a dynamic one. -/
def readsDynamic (ds : Declarations) (t : TypeName) : Bool :=
  (ds.idOf? t).bind TypeId.arrayLength? = some .dynamic

/-- The values of one annotated type hold those of another one directly. -/
def HoldsByValue (ds : Declarations) (dynamic : TypeName → Bool) (t u : TypeName) : Prop :=
  t.inPlace dynamic = true ∧ u ∈ ds.inside t

/-- An annotation in use holds itself by value. -/
def HoldsItself (ds : Declarations) (c : Contract) (dynamic : TypeName → Bool) : Prop :=
  ∃ t, ds.Uses c t ∧ TransGen (ds.HoldsByValue dynamic) t t

/-- Annotations in use with one id hold types of the same ids, in the same way. -/
def IdsTellContents (ds : Declarations) (c : Contract) : Prop :=
  ∀ t t' id, ds.Uses c t → ds.Uses c t' → ds.idOf? t = some id → ds.idOf? t' = some id →
    (ds.inside t).map ds.idOf? = (ds.inside t').map ds.idOf? ∧
      t.inPlace ds.readsDynamic = t'.inPlace ds.readsDynamic

/-- The arrays in use are read as dynamic ones if they are. -/
def ReadsLengths (ds : Declarations) (c : Contract) : Prop :=
  ∀ i element d, ds.Uses c (.array i element d) →
    ds.readsDynamic (.array i element d) = (TypeName.array i element d).declaredDynamic

variable {ds : Declarations} {c : Contract} {t u : TypeName}

lemma Uses.held {dynamic : TypeName → Bool} (used : ds.Uses c t)
    (path : TransGen (ds.HoldsByValue dynamic) t u) : ds.Uses c u := by
  induction path with
  | single step => exact .inside used step.2
  | tail _ step ih => exact .inside ih step.2

/-- Only what the annotations in use say of arrays matters. -/
lemma holdsItself_congr {dynamic dynamic' : TypeName → Bool}
    (same : ∀ t, ds.Uses c t → t.inPlace dynamic = t.inPlace dynamic') :
    ds.HoldsItself c dynamic ↔ ds.HoldsItself c dynamic' := by
  have path : ∀ {dynamic dynamic' : TypeName → Bool},
      (∀ t, ds.Uses c t → t.inPlace dynamic = t.inPlace dynamic') → ∀ {t u}, ds.Uses c t →
        TransGen (ds.HoldsByValue dynamic) t u → TransGen (ds.HoldsByValue dynamic') t u := by
    intro dynamic dynamic' same t u used path
    induction path with
    | single step => exact .single ⟨same t used ▸ step.1, step.2⟩
    | @tail v w outer step ih =>
      exact ih.tail ⟨same v (used.held outer) ▸ step.1, step.2⟩
  constructor
  · rintro ⟨t, used, cycle⟩
    exact ⟨t, used, path same used cycle⟩
  · rintro ⟨t, used, cycle⟩
    exact ⟨t, used, path (fun t used => (same t used).symm) used cycle⟩

lemma ReadsLengths.inPlace (reads : ds.ReadsLengths c) (used : ds.Uses c t) :
    t.inPlace ds.readsDynamic = t.inPlace TypeName.declaredDynamic := by
  cases t with
  | array i element d => exact congrArg not (reads i element d used)
  | _ => rfl

/-! ### Contracts that use few annotations -/

variable {ts : List TypeName}

lemma idsTellContents_of_uses (used : ∀ t, ds.Uses c t → t ∈ ts)
    (tell : ∀ t ∈ ts, ∀ t' ∈ ts, ds.idOf? t = ds.idOf? t' →
      (ds.inside t).map ds.idOf? = (ds.inside t').map ds.idOf? ∧
        t.inPlace ds.readsDynamic = t'.inPlace ds.readsDynamic) : ds.IdsTellContents c := by
  intro t t' id uses uses' named named'
  exact tell t (used t uses) t' (used t' uses') (named.trans named'.symm)

lemma readsLengths_of_uses (used : ∀ t, ds.Uses c t → t ∈ ts)
    (reads : ∀ t ∈ ts, t.inPlace ds.readsDynamic = t.inPlace TypeName.declaredDynamic) :
    ds.ReadsLengths c := by
  intro i element d uses
  exact Bool.not_inj (reads _ (used _ uses))

/-- Nothing holds itself if a list has every annotation before those that it holds. -/
lemma not_holdsItself_of_uses {dynamic : TypeName → Bool} (used : ∀ t, ds.Uses c t → t ∈ ts)
    (ordered : ∀ t ∈ ts, t.inPlace dynamic = true → ∀ u ∈ ds.inside t, ts.idxOf t < ts.idxOf u) :
    ¬ ds.HoldsItself c dynamic := by
  rintro ⟨t, uses, cycle⟩
  have behind : ∀ {u}, TransGen (ds.HoldsByValue dynamic) t u → ts.idxOf t < ts.idxOf u := by
    intro u path
    induction path with
    | single held => exact ordered t (used t uses) held.1 _ held.2
    | tail outer held ih => exact ih.trans (ordered _ (used _ (uses.held outer)) held.1 _ held.2)
  exact Nat.lt_irrefl _ (behind cycle)

end Declarations

/-! ## Annotations and size rules -/

/-- A size rule needs the types inside if values hold them, and else none. -/
lemma Describes.needs_eq {ds : Declarations} {id : TypeId} {t : TypeName}
    {d : Option Declaration} {ids : List TypeId} {kind : TypeKind} {rule : SizeRule}
    (h : Describes id t d ids kind rule) (named : ds.idOf? t = some id) :
    rule.needs = if t.inPlace ds.readsDynamic = true then ids else [] := by
  cases h with
  | dynamicArray element length =>
    simp [TypeName.inPlace, Declarations.readsDynamic, named, length, SizeRule.needs]
  | fixedArray element length =>
    simp [TypeName.inPlace, Declarations.readsDynamic, named, length, SizeRule.needs]
  | _ => rfl

namespace Declarations

variable {ds : Declarations} {c : Contract} {rules : Table SizeRule} {id other : TypeId}
  {t u : TypeName}

/-- Every size rule is that of an annotation in use. -/
def RulesInUse (ds : Declarations) (c : Contract) (rules : Table SizeRule) : Prop :=
  ∀ id rule, rules.find? id = some rule → ∃ t ids kind, ds.Uses c t ∧ ds.idOf? t = some id ∧
    (ds.inside t).map ds.idOf? = ids.map some ∧
    Describes id t (ds.declarationOf? t) ids kind rule

/-- What is needed for the size of a type is what its annotations hold. -/
lemma RulesInUse.needs_iff (grounded : ds.RulesInUse c rules) (told : ds.IdsTellContents c)
    {rule : SizeRule} (found : rules.find? id = some rule) (used : ds.Uses c t)
    (named : ds.idOf? t = some id) :
    Needs rules id other ↔ ∃ u, ds.HoldsByValue ds.readsDynamic t u ∧ ds.idOf? u = some other := by
  obtain ⟨t', ids, kind, used', named', inner, describes⟩ := grounded id rule found
  obtain ⟨contents, place⟩ := told t t' id used used' named named'
  rw [inner] at contents
  have member : some other ∈ (ds.inside t).map ds.idOf? ↔ other ∈ ids := by
    rw [contents]
    simp
  rw [List.mem_map] at member
  have needs := describes.needs_eq named'
  rw [← place] at needs
  constructor
  · intro needed
    have mem := needed.of_rule found
    rw [needs] at mem
    split at mem
    · next held =>
      obtain ⟨u, here, name⟩ := member.2 mem
      exact ⟨u, ⟨held, here⟩, name⟩
    · cases mem
  · rintro ⟨u, ⟨held, here⟩, name⟩
    refine ⟨rule, found, ?_⟩
    rw [needs, if_pos held]
    exact member.1 ⟨u, here, name⟩

/-- Along size rules there are annotations that hold one another. -/
lemma RulesInUse.path (grounded : ds.RulesInUse c rules) (told : ds.IdsTellContents c)
    (needed : TransGen (Needs rules) id other) (used : ds.Uses c t)
    (named : ds.idOf? t = some id) :
    ∃ u, (ds.Uses c u ∧ ds.idOf? u = some other) ∧
      TransGen (ds.HoldsByValue ds.readsDynamic) t u := by
  induction needed with
  | single step =>
    obtain ⟨rule, found, needs⟩ := step
    have step := (grounded.needs_iff told found used named).1 ⟨rule, found, needs⟩
    obtain ⟨u, held, name⟩ := step
    exact ⟨u, ⟨.inside used held.2, name⟩, .single held⟩
  | tail _ step ih =>
    obtain ⟨u, ⟨used', name⟩, path⟩ := ih
    obtain ⟨rule, found, needs⟩ := step
    have step := (grounded.needs_iff told found used' name).1 ⟨rule, found, needs⟩
    obtain ⟨v, held, name'⟩ := step
    exact ⟨v, ⟨.inside used' held.2, name'⟩, path.tail held⟩

/-- Where each of finitely many elements leads to another one, one of them leads to itself. -/
lemma exists_cycle {α : Type} {r : α → α → Prop} {p : α → Prop} {l : List α}
    (finite : ∀ a, p a → a ∈ l) {a : α} (start : p a)
    (leads : ∀ a, p a → ∃ b, p b ∧ TransGen r a b) : ∃ a, p a ∧ TransGen r a a := by
  by_contra none
  rw [not_exists] at none
  have few : Finite {a // p a} := (l.finite_toSet.subset fun a ha => finite a ha).to_subtype
  let behind : {a // p a} → {a // p a} → Prop := fun x y => TransGen r y.1 x.1
  have transitive : IsTrans {a // p a} behind := ⟨fun _ _ _ first second => second.trans first⟩
  have irreflexive : Std.Irrefl behind := ⟨fun x cycle => none x.1 ⟨x.2, cycle⟩⟩
  have founded := Finite.wellFounded_of_trans_of_irrefl behind
  obtain ⟨x, _, first⟩ := founded.has_min Set.univ ⟨⟨a, start⟩, trivial⟩
  obtain ⟨b, hb, path⟩ := leads x.1 x.2
  exact first ⟨b, hb⟩ trivial path

/-- A type on a cycle of size rules has an annotation that holds itself. -/
lemma RulesInUse.cycle (grounded : ds.RulesInUse c rules) (told : ds.IdsTellContents c)
    (cyclic : TransGen (Needs rules) id id) :
    ∃ t, (ds.Uses c t ∧ ds.idOf? t = some id) ∧
      TransGen (ds.HoldsByValue ds.readsDynamic) t t := by
  obtain ⟨_, ⟨rule, found, _⟩, _⟩ := TransGen.head'_iff.1 cyclic
  obtain ⟨t, _, _, used, named, _, _⟩ := grounded id rule found
  exact exists_cycle (fun a ha => ha.1.occurs) ⟨used, named⟩
    fun a ha => grounded.path told cyclic ha.1 ha.2

end Declarations

/-! ## Layouts of contracts -/

namespace Extracted

variable {ds : Declarations} {c : Contract} {l : Layout} {rules : Table SizeRule}
  {fs : List Footprint} {t u : TypeName} {id : TypeId}

lemma rulesInUse (whole : Extracted ds c l rules fs) : ds.RulesInUse c rules := by
  intro id rule found
  obtain ⟨info, t, ids, _, account⟩ := whole.account_of_rule found
  exact ⟨t, ids, info.kind, account.used, account.named, account.inner, account.describes⟩

lemma rule_of_entry (whole : Extracted ds c l rules fs) {info : TypeItem}
    (found : l.type? id = some info) : ∃ rule, rules.find? id = some rule := by
  obtain ⟨rule, ruled, _⟩ := whole.accounted found
  exact ⟨rule, ruled⟩

/-- What lies inside an annotation with a size rule has one as well. -/
lemma inside_ruled (whole : Extracted ds c l rules fs) (told : ds.IdsTellContents c)
    (used : ds.Uses c t) (named : ds.idOf? t = some id) {rule : SizeRule}
    (found : rules.find? id = some rule) (inside : u ∈ ds.inside t) :
    ∃ other rule, ds.idOf? u = some other ∧ rules.find? other = some rule := by
  obtain ⟨info, t', ids, _, account⟩ := whole.account_of_rule found
  have contents := (told t t' id used account.used named account.named).1
  rw [account.inner] at contents
  have mem : ds.idOf? u ∈ ids.map some := contents ▸ List.mem_map_of_mem inside
  obtain ⟨other, here, name⟩ := List.mem_map.1 mem
  obtain ⟨item, entered⟩ := account.known other here
  obtain ⟨rule, ruled⟩ := whole.rule_of_entry entered
  exact ⟨other, rule, name.symm, ruled⟩

/-- No size of a type in a layout needs itself. -/
lemma not_cyclic (whole : Extracted ds c l rules fs) : ¬ TransGen (Needs rules) id id := by
  intro cyclic
  obtain ⟨_, ⟨rule, found, _⟩, _⟩ := TransGen.head'_iff.1 cyclic
  obtain ⟨info, entered⟩ := whole.entered found
  obtain ⟨f, has, _⟩ := whole.sized entered
  exact has.not_cyclic cyclic

end Extracted

namespace Extraction

open Registering

variable {ds : Declarations} {c : Contract} {decode : String → String} {l : Layout}
  {rules : Table SizeRule} {fs : List Footprint} {t u : TypeName}

/-- In a layout, every stored variable has an item under the id of its annotation. -/
lemma item_of_stored (ran : layout ds decode c = .ok l) {bases : List Contract} {v : Variable}
    (lineage : ds.lineage c = .ok bases) (mem : v ∈ (variablesOf bases).map Prod.snd) :
    ∃ item ∈ l.storage, ds.idOf? v.type = some item.type := by
  obtain ⟨bases', p, known, lineage', placed, _, rfl⟩ := layout_ok ran
  cases lineage.symm.trans lineage'
  obtain ⟨items, parts, each⟩ := addVariables_items placed
  obtain ⟨declared, here, rfl⟩ := List.mem_map.1 mem
  rw [← List.map_snd_zip (Nat.le_of_eq each.length_eq.symm)] at here
  obtain ⟨q, paired, rfl⟩ := List.mem_map.1 here
  have listed : q.1 ∈ p.items := by
    rw [parts]
    exact List.mem_append_right _ (List.of_mem_zip paired).1
  exact ⟨q.1, listed, (List.forall₂_zip each paired).type⟩

lemma uses_ruled (ran : layout ds decode c = .ok l) (whole : Extracted ds c l rules fs)
    (told : ds.IdsTellContents c) (used : ds.Uses c t) :
    ∃ id rule, ds.idOf? t = some id ∧ rules.find? id = some rule := by
  induction used with
  | stored lineage mem =>
    obtain ⟨item, listed, named⟩ := item_of_stored ran lineage mem
    obtain ⟨info, entered⟩ := whole.complete.items item listed
    obtain ⟨rule, found⟩ := whole.rule_of_entry entered
    exact ⟨item.type, rule, named, found⟩
  | inside outer mem ih =>
    obtain ⟨id, rule, named, found⟩ := ih
    exact whole.inside_ruled told outer named found mem

/-- In a layout, the size of an annotated type needs those of the types that it holds. -/
lemma needs_of_held (ran : layout ds decode c = .ok l) (whole : Extracted ds c l rules fs)
    (told : ds.IdsTellContents c) (used : ds.Uses c t)
    (held : ds.HoldsByValue ds.readsDynamic t u) :
    ∃ id other, ds.idOf? t = some id ∧ ds.idOf? u = some other ∧ Needs rules id other := by
  obtain ⟨id, rule, named, found⟩ := uses_ruled ran whole told used
  obtain ⟨other, _, named', _⟩ := whole.inside_ruled told used named found held.2
  have needed := (whole.rulesInUse.needs_iff told found used named).2 ⟨u, held, named'⟩
  exact ⟨id, other, named, named', needed⟩

lemma needs_of_path (ran : layout ds decode c = .ok l) (whole : Extracted ds c l rules fs)
    (told : ds.IdsTellContents c) (used : ds.Uses c t)
    (path : TransGen (ds.HoldsByValue ds.readsDynamic) t u) :
    ∃ id other, ds.idOf? t = some id ∧ ds.idOf? u = some other ∧
      TransGen (Needs rules) id other := by
  induction path with
  | single held =>
    obtain ⟨id, other, named, named', needed⟩ := needs_of_held ran whole told used held
    exact ⟨id, other, named, named', .single needed⟩
  | tail outer held ih =>
    obtain ⟨id, between, named, named', path⟩ := ih
    obtain ⟨between', other, same, name, needed⟩ :=
      needs_of_held ran whole told (used.held outer) held
    cases named'.symm.trans same
    exact ⟨id, other, named, name, path.tail needed⟩

lemma not_holdsItself (ran : layout ds decode c = .ok l) (told : ds.IdsTellContents c) :
    ¬ ds.HoldsItself c ds.readsDynamic := by
  rintro ⟨t, used, cycle⟩
  obtain ⟨rules, fs, whole⟩ := extracted ran
  obtain ⟨id, other, named, named', cyclic⟩ := needs_of_path ran whole told used cycle
  cases named.symm.trans named'
  exact whole.not_cyclic cyclic

/-! ## Contracts that are refused -/

lemma Settled.rulesInUse {k : KnownTypes} (settled : Settled ds c k) :
    ds.RulesInUse c k.sizeRules := by
  intro id rule found
  obtain ⟨item, entered⟩ := settled.described.entered found
  obtain ⟨rule', found', t, ids, account⟩ := settled.described.accounted entered not_false
  cases found.symm.trans found'
  exact ⟨t, ids, item.kind, account.used, account.named, account.inner, account.describes⟩

/-- If an error is that a type contains itself, it is on a cycle of size rules in use. -/
def FindsCycle (ds : Declarations) (c : Contract) (cause : ResolutionError) : Prop :=
  ∀ id, cause = .selfContainingType id →
    ∃ rules, ds.RulesInUse c rules ∧ TransGen (Needs rules) id id

lemma register_findsCycle (fuel : Nat) (t : TypeName) (k : KnownTypes) :
    Leads (Registration.register ds fuel t) k (fun _ _ => True) (FindsCycle ds c) := by
  induction fuel generalizing t k with
  | zero => rintro _ ⟨⟩
  | succ fuel ih =>
    refine Registration.leads_register (by rintro _ _ ⟨⟩) fun id _ => ?_
    have described : ∀ d after, Leads (Registration.describe (Registration.register ds fuel) id
        (t.description.text.getD id) t d) after (fun _ _ => True) (FindsCycle ds c) := by
      intro d after
      refine Leads.imp (Registration.leads_describe _ (fun _ _ _ => True) (fun _ u _ _ _ k _ => ?_)
        (by rintro _ _ ⟨⟩) trivial) fun _ _ _ => trivial
      exact ih u k
    exact Registration.leads_declarationOf? (fun _ => ⟨fun _ => trivial, fun _ => described _ _⟩)
      (by rintro _ _ ⟨⟩)
      (fun _ _ _ => ⟨fun _ => trivial, fun _ => described _ _⟩)
      (fun _ _ _ => ⟨fun _ => trivial, fun _ => described _ _⟩)
      (by rintro _ _ _ _ _ _ ⟨⟩)

lemma placeVariable_findsCycle {v : Variable} (used : ds.Uses c v.type) (fuel : Nat)
    (free : Position) {k : KnownTypes} (settled : Settled ds c k) :
    Leads (placeVariable ds fuel v free) k (fun _ _ => True) (FindsCycle ds c) := by
  rw [placeVariable]
  simp only [leads_bind]
  have left := Registration.register_leaves Declarations.uses_closed fuel used settled.described
  refine (left.and (register_findsCycle fuel v.type k)).mono (fun id between h => ?_)
    fun _ h => h.2
  have sized := settled.sized.keeps settled.described h.1.keeps
  have between' : Settled ds c between := ⟨h.1.described, sized⟩
  refine (Sizing.footprint_cycle id between).mono (fun f after h => ?_)
    fun cause cyclic x named => ⟨_, between'.rulesInUse, cyclic x named⟩
  rcases free.place f with ⟨start | start, next⟩
  · rintro _ ⟨⟩
  · trivial

lemma layout_findsCycle {e : ExtractionError} (failed : layout ds decode c = .error e) :
    FindsCycle ds c e.cause := by
  cases layout_error failed with
  | lineage missing =>
    rintro id rfl
    cases Declarations.lineage_error missing
  | placing used settled refused =>
    exact leads_of_error (placeVariable_findsCycle used _ _ settled) refused
  | @sizing k _ settled refused =>
    intro id named
    have cyclic := leads_of_error (Sizing.sizeAll_cycle k.withoutSize rfl) refused
    exact ⟨_, settled.rulesInUse, cyclic id named⟩

/-- A contract is refused because a type contains itself. -/
def FindsSelfContaining (ds : Declarations) (decode : String → String) (c : Contract) : Prop :=
  ∃ location id, layout ds decode c = .error ⟨location, .selfContainingType id⟩

end Extraction

open Extraction in
/--
Where no other error occurs, a contract is refused exactly if an annotation in use holds itself,
with the lengths of arrays as they are read, and so with the declared ones if they are read
correctly. A type that is reported does hold itself. Sizing a type ends, and in the same
way however many levels more than there are size rules it may go down.
-/
theorem self_containment_detected {ds : Declarations} {c : Contract} {decode : String → String}
    (told : ds.IdsTellContents c)
    (ended : ∀ e, layout ds decode c = .error e → ∃ id, e.cause = .selfContainingType id) :
    (FindsSelfContaining ds decode c ↔ ds.HoldsItself c ds.readsDynamic) ∧
    (ds.ReadsLengths c →
      (FindsSelfContaining ds decode c ↔ ds.HoldsItself c TypeName.declaredDynamic)) ∧
    (∀ location id, layout ds decode c = .error ⟨location, .selfContainingType id⟩ →
      ∃ t, (ds.Uses c t ∧ ds.idOf? t = some id) ∧
        TransGen (ds.HoldsByValue ds.readsDynamic) t t) ∧
    ∀ (k : KnownTypes) (id : TypeId) (further : List TypeId → TypeId → Registering Footprint)
      (levels : Nat), k.sizeRules.size < levels →
        (Sizing.level^[levels] further [] id).run k = (Sizing.footprint id).run k := by
  have reported : ∀ location id, layout ds decode c = .error ⟨location, .selfContainingType id⟩ →
      ∃ t, (ds.Uses c t ∧ ds.idOf? t = some id) ∧
        TransGen (ds.HoldsByValue ds.readsDynamic) t t := by
    intro location id failed
    obtain ⟨rules, grounded, cyclic⟩ := layout_findsCycle failed id rfl
    exact grounded.cycle told cyclic
  have asRead : FindsSelfContaining ds decode c ↔ ds.HoldsItself c ds.readsDynamic := by
    constructor
    · rintro ⟨location, id, failed⟩
      obtain ⟨t, used, cycle⟩ := reported location id failed
      exact ⟨t, used.1, cycle⟩
    · intro holds
      cases ran : layout ds decode c with
      | ok l => exact absurd holds (not_holdsItself ran told)
      | error e =>
        obtain ⟨location, cause⟩ := e
        obtain ⟨id, rfl⟩ := ended _ ran
        exact ⟨location, id, ran⟩
  refine ⟨asRead, fun reads => ?_, reported, fun k id further levels enough => ?_⟩
  · exact asRead.trans (Declarations.holdsItself_congr fun t used => reads.inPlace used)
  · exact Sizing.levels_eq_footprint further enough id

/-! ### Structs that hold themselves, and structs that do not -/

/-- An annotation for the arrays of two loops. -/
def loopsType : TypeName :=
  .array 3 (structType 4 1 "Loop" "Invalid.Loop")
    ⟨some "t_array$_t_struct$_Loop_$1_storage_$2_storage", some "struct Invalid.Loop[2]"⟩

/-- A contract with a struct of two structs like itself. -/
def loopContract : Contract :=
  ⟨5, "Invalid", [5],
    [.variable (plainVariable 6 "value" (structType 7 1 "Loop" "Invalid.Loop"))], ""⟩

def loopProgram : Declarations :=
  ⟨[.struct ⟨1, "Loop", some "Invalid.Loop", [plainVariable 2 "inner" loopsType], ""⟩,
    .contract loopContract]⟩

lemma loop_uses : ∀ t, loopProgram.Uses loopContract t →
    t ∈ [structType 7 1 "Loop" "Invalid.Loop", loopsType, structType 4 1 "Loop" "Invalid.Loop"] :=
  Declarations.uses_mem [loopContract] rfl (by decide +kernel) (by decide +kernel)

theorem loop_detected :
    loopProgram.IdsTellContents loopContract ∧ loopProgram.ReadsLengths loopContract ∧
      Extraction.layout loopProgram id loopContract =
        .error ⟨some "", .selfContainingType "t_struct(Loop)storage"⟩ ∧
      loopProgram.HoldsItself loopContract TypeName.declaredDynamic := by
  have told : loopProgram.IdsTellContents loopContract :=
    Declarations.idsTellContents_of_uses loop_uses (by decide +kernel)
  have reads : loopProgram.ReadsLengths loopContract :=
    Declarations.readsLengths_of_uses loop_uses (by decide +kernel)
  have failed : Extraction.layout loopProgram id loopContract =
      .error ⟨some "", .selfContainingType "t_struct(Loop)storage"⟩ := by
    decide +kernel
  have ended : ∀ e, Extraction.layout loopProgram id loopContract = .error e →
      ∃ id, e.cause = .selfContainingType id := by
    intro e other
    cases failed.symm.trans other
    exact ⟨_, rfl⟩
  have detected := (self_containment_detected told ended).2.1 reads
  exact ⟨told, reads, failed, detected.1 ⟨_, _, failed⟩⟩

/-- An annotation for the dynamic arrays of nodes. -/
def childrenType : TypeName :=
  .array 5 (structType 6 3 "_Node" "Family._Node")
    ⟨some "t_array$_t_struct$__Node_$3_storage_$dyn_storage", some "struct Family._Node[]"⟩

/-- A contract with nodes that have dynamic arrays of nodes like themselves. -/
def familyContract : Contract :=
  ⟨9, "Family", [9],
    [.variable (plainVariable 10 "root" (structType 11 3 "_Node" "Family._Node"))], ""⟩

def familyProgram : Declarations :=
  ⟨[.struct ⟨3, "_Node", some "Family._Node",
      [plainVariable 2 "weight" (elementaryType 4 "uint64"),
        plainVariable 7 "children" childrenType], ""⟩,
    .contract familyContract]⟩

/-- An annotation for mappings to arrays of two structs of the second source file. -/
def dataPairsType : TypeName :=
  .mapping 31 (elementaryType 32 "uint256") (dataPairType 33 (dataType 34 13) 13)
    ⟨some "t_mapping$_t_uint256_$_t_array$_t_struct$_Data_$13_storage_$2_storage_$",
      some "mapping(uint256 => struct Data[2])"⟩

/-- A contract whose struct holds two structs of the same name from another source file. -/
def nestedContract : Contract :=
  ⟨40, "Nested", [40], [.variable (plainVariable 41 "root" (dataType 42 13))], ""⟩

def nestedProgram : Declarations :=
  ⟨[.struct dataOfOneMember,
    .struct ⟨13, "Data", some "Data", [plainVariable 30 "pairs" dataPairsType,
      plainVariable 35 "wrapper" (structType 36 20 "Wrapper" "Wrapper")], ""⟩,
    .struct ⟨20, "Wrapper", some "Wrapper",
      [plainVariable 21 "items" (dataPairType 22 (dataType 23 3) 3)], ""⟩,
    .contract nestedContract]⟩

/--
Two contracts that are refused although nothing in them holds itself: the length of the dynamic
array is read as 3, and the array of the wrapper is taken for the one in the mapping.
-/
theorem family_refused :
    Extraction.FindsSelfContaining familyProgram id familyContract ∧
      ¬ familyProgram.HoldsItself familyContract TypeName.declaredDynamic ∧
      Extraction.FindsSelfContaining nestedProgram id nestedContract ∧
      ¬ nestedProgram.HoldsItself nestedContract TypeName.declaredDynamic := by
  have family : Extraction.layout familyProgram id familyContract =
      .error ⟨some "", .selfContainingType "t_struct$__Node)3_storage"⟩ := by
    decide +kernel
  have nested : Extraction.layout nestedProgram id nestedContract =
      .error ⟨some "", .selfContainingType "t_struct(Data)storage"⟩ := by
    decide +kernel
  have used : ∀ t, familyProgram.Uses familyContract t →
      t ∈ [structType 11 3 "_Node" "Family._Node", structType 6 3 "_Node" "Family._Node",
        childrenType, elementaryType 4 "uint64"] :=
    Declarations.uses_mem [familyContract] rfl (by decide +kernel) (by decide +kernel)
  have used' : ∀ t, nestedProgram.Uses nestedContract t →
      t ∈ [dataPairType 33 (dataType 34 13) 13, dataType 34 13, dataType 42 13, dataPairsType,
        structType 36 20 "Wrapper" "Wrapper", dataPairType 22 (dataType 23 3) 3, dataType 23 3,
        elementaryType 32 "uint256", elementaryType 1 "uint256"] :=
    Declarations.uses_mem [nestedContract] rfl (by decide +kernel) (by decide +kernel)
  exact ⟨⟨_, _, family⟩, Declarations.not_holdsItself_of_uses used (by decide +kernel),
    ⟨_, _, nested⟩, Declarations.not_holdsItself_of_uses used' (by decide +kernel)⟩

end UpgradeSafety
