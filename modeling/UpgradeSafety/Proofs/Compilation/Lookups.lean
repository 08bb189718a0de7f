import UpgradeSafety.Compilation.Declarations
import UpgradeSafety.Proofs.Outcomes

/-!
# Contracts in two programs

Where the declarations of two programs are related, so are the contracts that
are found in them by id or by name, and the bases of related contracts.
-/

namespace UpgradeSafety

/-- Two declarations are contracts that are related, or neither of them is a contract. -/
inductive Declaration.ContractsAlike (related : Contract → Contract → Prop) :
    Declaration → Declaration → Prop where
  | contract {c c' : Contract} (h : related c c') :
      ContractsAlike related (.contract c) (.contract c')
  | other {d d' : Declaration} (h : d.kind ≠ .contract) (h' : d'.kind ≠ .contract) :
      ContractsAlike related d d'

namespace Declarations

variable {ds ds' : Declarations} {related : Contract → Contract → Prop}

lemma contract_other {n : NodeId} {d : Declaration} (found : ds.find? n = some d)
    (other : d.kind ≠ .contract) : ∃ cause, ds.contract n = .error cause := by
  rw [contract, resolve, found]
  cases d with
  | contract c => exact absurd rfl other
  | struct s => exact ⟨_, rfl⟩
  | enum e => exact ⟨_, rfl⟩
  | valueType t => exact ⟨_, rfl⟩

lemma contract_alike {n n' : NodeId}
    (found : Option.Rel (Declaration.ContractsAlike related) (ds.find? n) (ds'.find? n')) :
    EndAlike True related (ds.contract n) (ds'.contract n') := by
  generalize first : ds.find? n = d, second : ds'.find? n' = d' at found
  cases found with
  | none =>
    rw [contract, contract, resolve, resolve, first, second]
    exact .error _ _
  | some alike =>
    cases alike with
    | contract h =>
      rw [contract, contract, resolve, resolve, first, second]
      exact .ok h
    | other h h' =>
      obtain ⟨cause, failed⟩ := contract_other first h
      obtain ⟨cause', failed'⟩ := contract_other second h'
      rw [failed, failed']
      exact .error cause cause'

/-- The declarations of the contracts of a name. -/
def contractsNamed (ds : Declarations) (name : String) : List Declaration :=
  ds.all.filter fun d => d.kind = .contract && d.name = name

lemma contractNamed_alike {name : String} {r : Declaration → Declaration → Prop}
    (named : List.Forall₂ r (ds.contractsNamed name) (ds'.contractsNamed name))
    (found : ∀ d ∈ ds.all, ∀ d', r d d' →
      EndAlike True related (ds.contract d.id) (ds'.contract d'.id)) :
    EndAlike True related (ds.contractNamed name) (ds'.contractNamed name) := by
  have declared : ∀ d ∈ ds.contractsNamed name, d ∈ ds.all := fun d member =>
    (List.mem_filter.1 member).1
  rw [contractNamed, contractNamed]
  unfold contractsNamed at named declared
  generalize ds.all.filter _ = l, ds'.all.filter _ = l' at named declared ⊢
  cases named with
  | nil => exact .error _ _
  | cons first rest =>
    cases rest with
    | nil => exact found _ (declared _ List.mem_cons_self) _ first
    | cons second others => exact .error _ _

/-- The bases of two contracts, where their ids are those of related contracts. -/
lemma lineage_alike {c c' : Contract} (hc : related c c')
    (bases : List.Forall₂ (fun n n' => (n = c.id ↔ n' = c'.id) ∧
      EndAlike True related (ds.contract n) (ds'.contract n')) c.lineage c'.lineage) :
    EndAlike True (List.Forall₂ related) (ds.lineage c) (ds'.lineage c') := by
  have empty : c.lineage.isEmpty = c'.lineage.isEmpty := by
    generalize c.lineage = l, c'.lineage = l' at bases ⊢
    cases bases <;> rfl
  rw [lineage, lineage, empty]
  split
  · exact .ok (.cons hc .nil)
  · apply EndAlike.mapM (List.rel_reverse bases)
    rintro n n' ⟨same, found⟩
    by_cases own : n = c.id
    · rw [if_pos own, if_pos (same.1 own)]
      exact .ok hc
    · rw [if_neg own, if_neg (mt same.2 own)]
      exact found

end Declarations

end UpgradeSafety
