import UpgradeSafety.Proofs.Extraction.Annotations
import UpgradeSafety.Proofs.Outcomes

/-!
# Contracts that gain variables

A contract gets variables behind everything that it declares, and nothing else in its
program changes. Ids stay the same, and so do the bases in front of the contract, which
the compiler lists behind it.
-/

namespace UpgradeSafety

namespace Contract

/-- The contract with more variables behind everything that it declares. -/
def withMore (c : Contract) (more : List Variable) : Contract :=
  { c with nodes := c.nodes ++ more.map .variable }

/-- The contract is the first of those that its variables come from, or the list is left out. -/
def ListedFirst (c : Contract) : Prop :=
  c.lineage = [] ∨ ∃ bases, c.lineage = c.id :: bases ∧ c.id ∉ bases

lemma allVariables_withMore (c : Contract) (more : List Variable) :
    (c.withMore more).allVariables = c.allVariables ++ more := by
  rw [allVariables, withMore, List.filterMap_append, List.filterMap_map]
  exact congrArg (c.allVariables ++ ·) List.filterMap_some

lemma storedVariables_withMore (c : Contract) (more : List Variable) :
    (c.withMore more).storedVariables = c.storedVariables ++ more.filter Variable.isStored := by
  rw [storedVariables, allVariables_withMore, List.filter_append]
  rfl

/-- Variables declare nothing that could be referred to. -/
lemma declarations_withMore (c : Contract) (more : List Variable) :
    (c.withMore more).nodes.filterMap ContractNode.declaration? =
      c.nodes.filterMap ContractNode.declaration? := by
  have none : (more.map ContractNode.variable).filterMap ContractNode.declaration? = [] := by
    simp [ContractNode.declaration?]
  rw [withMore, List.filterMap_append, none, List.append_nil]

end Contract

/-! ## Programs around the contract -/

/-- The same declaration, or the contract with more variables. -/
inductive Declaration.Gains (c : Contract) (more : List Variable) :
    Declaration → Declaration → Prop where
  | same (d : Declaration) : Gains c more d d
  | contract : Gains c more (.contract c) (.contract (c.withMore more))

namespace Declaration.Gains

variable {c : Contract} {more : List Variable} {d d' : Declaration}

lemma id (h : d.Gains c more d') : d.id = d'.id := by
  cases h <;> rfl

lemma kind (h : d.Gains c more d') : d.kind = d'.kind := by
  cases h <;> rfl

lemma name (h : d.Gains c more d') : d.name = d'.name := by
  cases h <;> rfl

lemma canonicalName? (h : d.Gains c more d') : d.canonicalName? = d'.canonicalName? := by
  cases h <;> rfl

end Declaration.Gains

/-- The same declarations, where the contract may have more variables wherever it stands. -/
def Declarations.Gains (ds : Declarations) (c : Contract) (more : List Variable)
    (ds' : Declarations) : Prop :=
  List.Forall₂ (Declaration.Gains c more) ds.all ds'.all

/-- The same top-level node, or the contract with more variables. -/
inductive SourceNode.Gains (c : Contract) (more : List Variable) :
    SourceNode → SourceNode → Prop where
  | same (node : SourceNode) : Gains c more node node
  | contract : Gains c more (.contract c) (.contract (c.withMore more))

/-- The same source files, where the contract may have more variables wherever it stands. -/
def Compilation.Gains (p : Compilation) (c : Contract) (more : List Variable)
    (p' : Compilation) : Prop :=
  List.Forall₂ (fun s s' => List.Forall₂ (SourceNode.Gains c more) s.nodes s'.nodes)
    p.sources.values p'.sources.values

lemma SourceNode.Gains.declarations {c : Contract} {more : List Variable}
    {node node' : SourceNode} (h : node.Gains c more node') :
    List.Forall₂ (Declaration.Gains c more) node.declarations node'.declarations := by
  cases h with
  | same => exact List.forall₂_same.2 fun d _ => .same d
  | contract =>
    rw [SourceNode.declarations, SourceNode.declarations, Contract.declarations_withMore]
    exact List.rel_append (List.forall₂_same.2 fun d _ => .same d) (.cons .contract .nil)

/-- A program gains no other declarations than its source files do. -/
lemma Compilation.Gains.declarations {c : Contract} {more : List Variable} {p p' : Compilation}
    (h : p.Gains c more p') :
    (Declarations.ofCompilation p).Gains c more (.ofCompilation p') :=
  List.rel_flatMap h fun _ _ nodes => List.rel_flatMap nodes fun _ _ node => node.declarations

namespace Declarations

variable {ds ds' : Declarations} {c : Contract} {more : List Variable}

lemma lineage_empty (none : c.lineage = []) : ds.lineage c = .ok [c] := by
  rw [lineage, if_pos (List.isEmpty_iff.2 none)]

lemma lineage_listed {others : List NodeId} (first : c.lineage = c.id :: others)
    (apart : c.id ∉ others) :
    ds.lineage c = (others.reverse.mapM ds.contract).map (· ++ [c]) := by
  have front : others.reverse.mapM (fun n => if n = c.id then .ok c else ds.contract n) =
      others.reverse.mapM ds.contract := by
    apply mapM_congr
    intro n member
    have other : n ≠ c.id := fun own => apart (own ▸ List.mem_reverse.1 member)
    rw [if_neg other]
  rw [lineage, first, List.isEmpty_cons, if_neg Bool.false_ne_true, List.reverse_cons,
    List.mapM_append, front, List.mapM_cons, if_pos rfl]
  cases others.reverse.mapM ds.contract <;> rfl

namespace Gains

lemma find? (h : ds.Gains c more ds') (n : NodeId) :
    Option.Rel (Declaration.Gains c more) (ds.find? n) (ds'.find? n) := by
  apply forall₂_getLast?
  apply forall₂_filter h
  intro d d' hd
  rw [hd.id]

lemma sharing (h : ds.Gains c more ds') (kind : DeclarationKind) (name : String) :
    ds.sharing kind name = ds'.sharing kind name := by
  rw [Declarations.sharing, Declarations.sharing, List.countP_eq_length_filter,
    List.countP_eq_length_filter]
  apply List.Forall₂.length_eq
  apply forall₂_filter h
  intro d d' hd
  rw [hd.kind, hd.name]

lemma distinctName? (h : ds.Gains c more ds') : ds.distinctName? = ds'.distinctName? := by
  funext n
  rw [Declarations.distinctName?, Declarations.distinctName?]
  have found := h.find? n
  generalize ds.find? n = d, ds'.find? n = d' at found
  cases found with
  | none => rfl
  | some hd => rw [Option.bind_some, Option.bind_some, h.sharing, hd.kind, hd.name,
      hd.canonicalName?]

lemma canonicalId (h : ds.Gains c more ds') (raw : String) :
    ds.canonicalId raw = ds'.canonicalId raw := by
  rw [Declarations.canonicalId, Declarations.canonicalId, h.distinctName?]

/-- Other contracts than the one that gains variables are found as before. -/
lemma contract_eq (h : ds.Gains c more ds') {n : NodeId} (other : n ≠ c.id) :
    ds.contract n = ds'.contract n := by
  have same : ds.find? n = ds'.find? n := by
    have found := h.find? n
    generalize here : ds.find? n = d, ds'.find? n = d' at found
    cases found with
    | none => rfl
    | some hd =>
      cases hd with
      | same d => rfl
      | contract => exact absurd (Registration.find?_id here).symm other
  rw [Declarations.contract, Declarations.contract, resolve, resolve, same]

/-- The bases in front of the contract are the same. -/
lemma lineage (h : ds.Gains c more ds') (listed : c.ListedFirst) {bases' : List Contract}
    (found : ds'.lineage (c.withMore more) = .ok bases') :
    ∃ bases, ds.lineage c = .ok (bases ++ [c]) ∧ bases' = bases ++ [c.withMore more] := by
  rcases listed with none | ⟨others, first, apart⟩
  · have alone : ds'.lineage (c.withMore more) = _ := lineage_empty none
    rw [alone] at found
    exact ⟨[], lineage_empty none, (Except.ok.inj found).symm⟩
  · have same : others.reverse.mapM ds.contract = others.reverse.mapM ds'.contract :=
      mapM_congr fun n member => h.contract_eq
        fun own => apart (own ▸ List.mem_reverse.1 member)
    rw [lineage_listed first apart, same]
    have listed' : ds'.lineage (c.withMore more) = _ := lineage_listed first apart
    rw [listed'] at found
    cases before : others.reverse.mapM ds'.contract with
    | error cause =>
      rw [before] at found
      cases found
    | ok bases =>
      rw [before] at found
      exact ⟨bases, rfl, (Except.ok.inj found).symm⟩

end Gains

end Declarations

namespace Extraction

lemma variablesOf_concat (bases : List Contract) (c : Contract) :
    variablesOf (bases ++ [c]) = variablesOf bases ++ c.storedVariables.map (c, ·) := by
  rw [variablesOf, List.flatMap_append, List.flatMap_singleton]
  rfl

/-- The variables are those that there were, under contracts of the same names, and then more. -/
lemma variablesOf_withMore (bases : List Contract) (c : Contract) (more : List Variable) :
    ∃ vs, variablesOf (bases ++ [c.withMore more]) =
        vs ++ (more.filter Variable.isStored).map (c.withMore more, ·) ∧
      List.Forall₂ (fun q q' => q.1.name = q'.1.name ∧ q.2 = q'.2)
        (variablesOf (bases ++ [c])) vs := by
  refine ⟨variablesOf bases ++ c.storedVariables.map (c.withMore more, ·), ?_, ?_⟩
  · rw [variablesOf_concat, Contract.storedVariables_withMore, List.map_append, List.append_assoc]
  · rw [variablesOf_concat]
    apply List.rel_append (List.forall₂_same.2 fun _ _ => ⟨rfl, rfl⟩)
    rw [List.forall₂_map_left_iff, List.forall₂_map_right_iff]
    exact List.forall₂_same.2 fun _ _ => ⟨rfl, rfl⟩

end Extraction

end UpgradeSafety
