import UpgradeSafety.Proofs.Extraction.Annotations
import UpgradeSafety.Proofs.Outcomes

/-!
# Annotations that occur in a program

The bases of a contract are declared in its program, and the annotations in use are
among those of its declarations, or inside them. These are as many as are counted for
the fuel of a registration.
-/

namespace UpgradeSafety

/-- Whether an error is about what a node is. -/
def ResolutionError.concernsNode : ResolutionError → Bool
  | .notFound _ => true
  | .wrongNodeType _ _ _ => true
  | _ => false

namespace Declarations

/-- The contracts whose variables a contract has: its bases, most basic one first, and itself. -/
def Bases (ds : Declarations) (c : Contract) (bases : List Contract) : Prop :=
  if c.lineage = [] then bases = [c]
  else List.Forall₂
    (fun id base => if id = c.id then base = c else ds.find? id = some (.contract base))
    c.lineage.reverse bases

variable {ds : Declarations} {c : Contract}

lemma bases_of_lineage {bases : List Contract} (found : ds.lineage c = .ok bases) :
    ds.Bases c bases := by
  rw [lineage] at found
  rw [Bases]
  by_cases none : c.lineage = []
  · rw [if_pos (List.isEmpty_iff.2 none)] at found
    rw [if_pos none]
    exact (Except.ok.inj found).symm
  · rw [if_neg (mt List.isEmpty_iff.1 none)] at found
    rw [if_neg none]
    apply (mapM_eq_ok found).imp
    intro id base found
    by_cases own : id = c.id
    · rw [if_pos own] at found ⊢
      exact (Except.ok.inj found).symm
    · rw [if_neg own] at found ⊢
      rw [contract, resolve] at found
      cases declared : ds.find? id with
      | none => rw [declared] at found; cases found
      | some d =>
        rw [declared] at found
        cases d with
        | contract other => cases found; rfl
        | struct s => cases found
        | enum e => cases found
        | valueType t => cases found

lemma contract_error {node : NodeId} {cause : ResolutionError}
    (h : ds.contract node = .error cause) : cause.concernsNode = true := by
  rw [contract, resolve] at h
  cases found : ds.find? node with
  | none =>
    rw [found] at h
    cases h
    rfl
  | some d =>
    rw [found] at h
    cases d <;> cases h <;> rfl

/-- The bases of a contract are looked for without regard to the types of variables. -/
lemma lineage_error {cause : ResolutionError} (h : ds.lineage c = .error cause) :
    cause.concernsNode = true := by
  rw [lineage] at h
  split at h
  · cases h
  · obtain ⟨node, _, failed⟩ := mapM_eq_error h
    split at failed
    · cases failed
    · exact contract_error failed

lemma Bases.declared {bases : List Contract} (h : ds.Bases c bases) {base : Contract}
    (mem : base ∈ bases) : base = c ∨ .contract base ∈ ds.all := by
  rw [Bases] at h
  by_cases none : c.lineage = []
  · rw [if_pos none] at h
    rw [h, List.mem_singleton] at mem
    exact Or.inl mem
  · rw [if_neg none] at h
    obtain ⟨i, inside, rfl⟩ := List.mem_iff_getElem.1 mem
    have found := h.get (h.length_eq ▸ inside) inside
    simp only [List.get_eq_getElem] at found
    split at found
    · exact Or.inl found
    · exact Or.inr (List.mem_filter.1 (List.mem_of_getLast? found)).1

lemma declarationOf?_mem {t : TypeName} {d : Declaration} (found : ds.declarationOf? t = some d) :
    d ∈ ds.all := by
  obtain ⟨node, _, found⟩ := Option.bind_eq_some_iff.1 found
  exact (List.mem_filter.1 (List.mem_of_getLast? found)).1

end Declarations

/-! ## Annotations inside annotations -/

/-- An annotation and those that it is written with. -/
def TypeName.written : TypeName → List TypeName
  | .mapping i key value d => .mapping i key value d :: (key.written ++ value.written)
  | .array i element d => .array i element d :: element.written
  | t => [t]

lemma TypeName.length_written (t : TypeName) : t.written.length = t.count := by
  induction t with
  | mapping i key value d ihKey ihValue => simp [written, count, ihKey, ihValue]
  | array i element d ih => simp [written, count, ih]
  | _ => rfl

lemma TypeName.mem_written (t : TypeName) : t ∈ t.written := by
  cases t <;> simp [written]

lemma TypeName.written_subset {t u : TypeName} (h : u ∈ t.written) : u.written ⊆ t.written := by
  induction t with
  | mapping i key value d ihKey ihValue =>
    rcases List.mem_cons.1 h with rfl | h
    · exact List.Subset.refl _
    · apply List.subset_cons_of_subset
      rcases List.mem_append.1 h with h | h
      · exact List.subset_append_of_subset_left _ (ihKey h)
      · exact List.subset_append_of_subset_right _ (ihValue h)
  | array i element d ih =>
    rcases List.mem_cons.1 h with rfl | h
    · exact List.Subset.refl _
    · exact List.subset_cons_of_subset _ (ih h)
  | elementary i n d => rw [List.mem_singleton.1 h]; exact List.Subset.refl _
  | declared i r n d => rw [List.mem_singleton.1 h]; exact List.Subset.refl _
  | function i d => rw [List.mem_singleton.1 h]; exact List.Subset.refl _

/-- What is inside an annotation is written in it, or in the declaration that it names. -/
lemma TypeName.parts_cases {t u : TypeName} {d : Option Declaration} (h : u ∈ t.parts d) :
    u ∈ t.written ∨ ∃ e, d = some e ∧ u ∈ e.annotations := by
  cases t with
  | mapping i key value desc =>
    rcases List.mem_pair.1 h with rfl | rfl
    · exact Or.inl (by simp [written, mem_written])
    · exact Or.inl (by simp [written, mem_written])
  | array i element desc =>
    rw [List.mem_singleton.1 h]
    exact Or.inl (by simp [written, mem_written])
  | declared i r n desc =>
    cases d with
    | none => cases h
    | some e =>
      refine Or.inr ⟨e, rfl, ?_⟩
      cases e with
      | struct s => exact h
      | valueType v => exact h
      | contract c => cases h
      | enum e => cases h
  | elementary i n desc => cases h
  | function i desc => cases h

namespace Declarations

variable {ds : Declarations} {c : Contract} {t : TypeName}

/-- The annotations of a program and of a contract, with those that they are written with. -/
def occurrences (ds : Declarations) (c : Contract) : List TypeName :=
  ((Declaration.contract c :: ds.all).flatMap Declaration.annotations).flatMap TypeName.written

lemma length_occurrences (ds : Declarations) (c : Contract) :
    (ds.occurrences c).length = ds.annotationCount c := by
  rw [occurrences, List.length_flatMap, List.sum_eq_foldl_nat, annotationCount]
  simp only [TypeName.length_written]

lemma mem_occurrences {d : Declaration} (declared : d = .contract c ∨ d ∈ ds.all)
    (mem : t ∈ d.annotations) : t ∈ ds.occurrences c := by
  refine List.mem_flatMap.2 ⟨t, List.mem_flatMap.2 ⟨d, ?_, mem⟩, t.mem_written⟩
  exact List.mem_cons.2 declared

lemma inside_occurrences (mem : t ∈ ds.occurrences c) {u : TypeName} (inside : u ∈ ds.inside t) :
    u ∈ ds.occurrences c := by
  rcases TypeName.parts_cases inside with written | ⟨d, declared, annotates⟩
  · obtain ⟨outer, here, within⟩ := List.mem_flatMap.1 mem
    exact List.mem_flatMap.2 ⟨outer, here, TypeName.written_subset within written⟩
  · exact mem_occurrences (Or.inr (declarationOf?_mem declared)) annotates

lemma Uses.occurs (used : ds.Uses c t) : t ∈ ds.occurrences c := by
  induction used with
  | @stored bases v lineage mem =>
    obtain ⟨q, here, rfl⟩ := List.mem_map.1 mem
    obtain ⟨base, isBase, here⟩ := List.mem_flatMap.1 here
    obtain ⟨v, stored, rfl⟩ := List.mem_map.1 here
    have annotates : v.type ∈ (Declaration.contract base).annotations :=
      List.mem_map_of_mem (List.mem_filter.1 stored).1
    refine mem_occurrences ?_ annotates
    exact ((bases_of_lineage lineage).declared isBase).imp_left (congrArg Declaration.contract)
  | inside _ mem ih => exact inside_occurrences ih mem

end Declarations

end UpgradeSafety
