import Mathlib.Data.List.Sigma
import Mathlib.Data.Set.Card
import UpgradeSafety.Proofs.Compilation.Lookups
import UpgradeSafety.Proofs.Tables

/-!
# Declarations and their places

What a program declares is told from the places of its nodes: those at the top level of a source
file, and those inside a contract there. If no two places declare one id, then ids and names refer
to what is declared at these places, each of which counts once, and it does not matter in which
file and in which order the nodes at the top level stand.
-/

namespace UpgradeSafety

/-- Lists whose elements have a key each of its own have no element in common. -/
lemma nodup_flatMap_of_keys {α β κ : Type} {l : List α} {f : α → List β} (keyOf : β → κ)
    (key : α → κ) (own : ∀ a, ∀ b ∈ f a, keyOf b = key a) (each : ∀ a ∈ l, (f a).Nodup)
    (distinct : (l.map key).Nodup) : (l.flatMap f).Nodup := by
  rw [List.nodup_flatMap]
  refine ⟨each, (List.pairwise_map.1 distinct).imp fun apart b first second => ?_⟩
  exact apart ((own _ b first).symm.trans (own _ b second))

/-! ## Places -/

/-- A node of a source file, or a node inside that node. -/
structure Place where
  source : String
  node : Nat
  inner : Option Nat
  deriving DecidableEq

namespace SourceNode

/-- The declaration that a top-level node is. -/
def declaration? : SourceNode → Option Declaration
  | .contract c => some (.contract c)
  | .struct s => some (.struct s)
  | .enum e => some (.enum e)
  | .valueType t => some (.valueType t)
  | .other => none

/-- The nodes inside a top-level node. -/
def nodes : SourceNode → List ContractNode
  | .contract c => c.nodes
  | _ => []

/-- The declarations that a top-level node makes, with their places. -/
def placed (source : String) (i : Nat) (node : SourceNode) : List (Place × Declaration) :=
  node.nodes.zipIdx.filterMap (fun n => n.1.declaration?.map (⟨source, i, some n.2⟩, ·)) ++
    (node.declaration?.map (⟨source, i, none⟩, ·)).toList

lemma map_placed (source : String) (i : Nat) (node : SourceNode) :
    (node.placed source i).map Prod.snd = node.declarations := by
  have inside (ns : List ContractNode) :
      (ns.zipIdx.filterMap fun n => n.1.declaration?.map
        ((⟨source, i, some n.2⟩, ·) : Declaration → Place × Declaration)).map Prod.snd =
      ns.filterMap ContractNode.declaration? := by
    rw [List.map_filterMap]
    conv_rhs => rw [← List.zipIdx_map_fst 0 ns, List.filterMap_map]
    congr 1
    funext n
    simp
  rw [placed, List.map_append, inside]
  cases node <;> rfl

variable {source : String} {i : Nat} {node : SourceNode} {p : Place} {d : Declaration}

lemma mem_placed_iff : (p, d) ∈ node.placed source i ↔ p.source = source ∧ p.node = i ∧
    (match p.inner with
    | none => node.declaration?
    | some j => node.nodes[j]?.bind ContractNode.declaration?) = some d := by
  obtain ⟨source', i', inner⟩ := p
  rw [placed, List.mem_append, List.mem_filterMap, Option.mem_toList, Option.map_eq_some_iff]
  cases inner with
  | none =>
    constructor
    · rintro (⟨n, -, inside⟩ | ⟨d', made, same⟩)
      · obtain ⟨_, _, same⟩ := Option.map_eq_some_iff.1 inside
        cases same
      · cases same
        exact ⟨rfl, rfl, made⟩
    · rintro ⟨rfl, rfl, made⟩
      exact .inr ⟨d, made, rfl⟩
  | some j =>
    constructor
    · rintro (⟨n, mem, inside⟩ | ⟨d', _, same⟩)
      · obtain ⟨d', made, same⟩ := Option.map_eq_some_iff.1 inside
        cases same
        exact ⟨rfl, rfl, Option.bind_eq_some_iff.2 ⟨n.1, List.mem_zipIdx_iff_getElem?.1 mem, made⟩⟩
      · cases same
    · rintro ⟨rfl, rfl, made⟩
      obtain ⟨n, there, made⟩ := Option.bind_eq_some_iff.1 made
      exact .inl ⟨(n, j), List.mem_zipIdx_iff_getElem?.2 there, Option.map_eq_some_iff.2
        ⟨d, made, rfl⟩⟩

lemma nodup_placed : ((node.placed source i).map Prod.fst).Nodup := by
  have inside : (node.nodes.zipIdx.filterMap fun n => n.1.declaration?.map
      ((⟨source, i, some n.2⟩, ·) : Declaration → Place × Declaration)).Pairwise
      (fun x y => x.1 ≠ y.1) := by
    rw [List.pairwise_filterMap]
    refine (List.pairwise_map.1 (List.nodup_zipIdx_map_snd node.nodes)).imp ?_
    intro n m apart x first y second same
    obtain ⟨_, _, rfl⟩ := Option.map_eq_some_iff.1 first
    obtain ⟨_, _, rfl⟩ := Option.map_eq_some_iff.1 second
    exact apart (Option.some_inj.1 (Place.mk.inj same).2.2)
  have itself : (node.declaration?.map
      ((⟨source, i, none⟩, ·) : Declaration → Place × Declaration)).toList.Pairwise
      (fun x y => x.1 ≠ y.1) := by
    cases node.declaration? <;> simp
  rw [List.Nodup, List.pairwise_map, placed, List.pairwise_append]
  refine ⟨inside, itself, fun x first y second same => ?_⟩
  obtain ⟨n, _, first⟩ := List.mem_filterMap.1 first
  obtain ⟨_, _, rfl⟩ := Option.map_eq_some_iff.1 first
  obtain ⟨_, _, rfl⟩ := Option.map_eq_some_iff.1 (Option.mem_toList.1 second)
  cases same

end SourceNode

/-- The declarations of a source file with their places. -/
def Source.placed (name : String) (source : Source) : List (Place × Declaration) :=
  source.nodes.zipIdx.flatMap fun n => n.1.placed name n.2

namespace Compilation

variable {c : Compilation} {p : Place} {d : Declaration}

/-- The declaration at a place in a program. -/
def declarationAt? (c : Compilation) (p : Place) : Option Declaration :=
  ((c.sources.find? p.source).bind (·.nodes[p.node]?)).bind fun node =>
    match p.inner with
    | none => node.declaration?
    | some i => node.nodes[i]?.bind ContractNode.declaration?

/-- The declarations of a program with their places. -/
def placed (c : Compilation) : List (Place × Declaration) :=
  c.sources.entries.flatMap fun e => e.2.placed e.1

lemma map_placed (c : Compilation) :
    c.placed.map Prod.snd = (Declarations.ofCompilation c).all := by
  have file (name : String) (source : Source) :
      (source.placed name).map Prod.snd = source.nodes.flatMap SourceNode.declarations := by
    rw [Source.placed, List.map_flatMap]
    conv_rhs => rw [← List.zipIdx_map_fst 0 source.nodes, List.flatMap_map]
    simp only [SourceNode.map_placed]
  rw [placed, List.map_flatMap, Declarations.ofCompilation, Table.values, List.flatMap_map]
  simp only [file]

lemma mem_placed_iff : (p, d) ∈ c.placed ↔ c.declarationAt? p = some d := by
  simp only [placed, Source.placed, List.mem_flatMap, SourceNode.mem_placed_iff, declarationAt?,
    Option.bind_eq_some_iff]
  constructor
  · rintro ⟨⟨name, source⟩, entered, ⟨node, i⟩, there, rfl, rfl, made⟩
    exact ⟨node, ⟨source, Table.find?_of_mem_entries entered,
      List.mem_zipIdx_iff_getElem?.1 there⟩, made⟩
  · rintro ⟨node, ⟨source, found, there⟩, made⟩
    exact ⟨(p.source, source), Table.mem_entries_of_find? found, (node, p.node),
      List.mem_zipIdx_iff_getElem?.2 there, rfl, rfl, made⟩

lemma nodup_placed (c : Compilation) : (c.placed.map Prod.fst).Nodup := by
  have file (e : String × Source) : ((e.2.placed e.1).map Prod.fst).Nodup := by
    rw [Source.placed, List.map_flatMap]
    refine nodup_flatMap_of_keys Place.node Prod.snd (fun n p mem => ?_)
      (fun n _ => SourceNode.nodup_placed) (List.nodup_zipIdx_map_snd _)
    obtain ⟨_, entry, rfl⟩ := List.mem_map.1 mem
    exact (SourceNode.mem_placed_iff.1 entry).2.1
  rw [placed, List.map_flatMap]
  refine nodup_flatMap_of_keys Place.source Prod.fst (fun e p mem => ?_) (fun e _ => file e)
    (c.sources.sorted.imp String.ne_of_lt)
  obtain ⟨_, entry, rfl⟩ := List.mem_map.1 mem
  obtain ⟨n, _, entry⟩ := List.mem_flatMap.1 entry
  exact (SourceNode.mem_placed_iff.1 entry).1

/-- No two places declare one id. -/
def DistinctIds (c : Compilation) : Prop :=
  ∀ p q d e, c.declarationAt? p = some d → c.declarationAt? q = some e → d.id = e.id → p = q

end Compilation

namespace Declarations

variable {c : Compilation} {ds ds' : Declarations} {d : Declaration} {id : NodeId} {name : String}

lemma mem_ofCompilation_iff : d ∈ (ofCompilation c).all ↔ ∃ p, c.declarationAt? p = some d := by
  rw [← Compilation.map_placed, List.mem_map]
  constructor
  · rintro ⟨⟨p, d⟩, mem, rfl⟩
    exact ⟨p, Compilation.mem_placed_iff.1 mem⟩
  · rintro ⟨p, there⟩
    exact ⟨(p, d), Compilation.mem_placed_iff.2 there, rfl⟩

lemma nodup_ids (distinct : c.DistinctIds) : ((ofCompilation c).all.map Declaration.id).Nodup := by
  rw [← Compilation.map_placed, List.map_map]
  refine List.Nodup.map_on ?_ (List.Nodup.of_map _ c.nodup_placed)
  rintro ⟨p, d⟩ first ⟨q, e⟩ second same
  have first := Compilation.mem_placed_iff.1 first
  have second := Compilation.mem_placed_iff.1 second
  obtain rfl := distinct p q d e first second same
  rw [Option.some_inj.1 (first.symm.trans second)]

/-- There are as many places of some declarations as there are such declarations. -/
lemma encard_places (c : Compilation) (q : Declaration → Bool) :
    {p | ∃ d, c.declarationAt? p = some d ∧ q d = true}.encard =
      (ofCompilation c).all.countP q := by
  have places : {p | ∃ d, c.declarationAt? p = some d ∧ q d = true} =
      ((c.placed.filter (q ·.2)).map Prod.fst).toFinset := by
    ext p
    simp only [Set.mem_ofPred_eq, List.coe_toFinset, List.mem_map, List.mem_filter]
    constructor
    · rintro ⟨d, there, wanted⟩
      exact ⟨(p, d), ⟨Compilation.mem_placed_iff.2 there, wanted⟩, rfl⟩
    · rintro ⟨⟨p, d⟩, ⟨mem, wanted⟩, rfl⟩
      exact ⟨d, Compilation.mem_placed_iff.1 mem, wanted⟩
  have distinct : ((c.placed.filter (q ·.2)).map Prod.fst).Nodup :=
    c.nodup_placed.sublist (List.filter_sublist.map _)
  rw [places, Set.encard_coe_eq_coe_finsetCard, List.toFinset_card_of_nodup distinct,
    List.length_map, ← List.countP_eq_length_filter, ← Compilation.map_placed, List.countP_map]
  rfl

lemma find?_eq_some_iff (distinct : (ds.all.map Declaration.id).Nodup) :
    ds.find? id = some d ↔ d ∈ ds.all ∧ d.id = id := by
  constructor
  · intro found
    simpa using List.mem_filter.1 (List.mem_of_getLast? found)
  · rintro ⟨mem, rfl⟩
    have found : d ∈ ds.all.filter fun e => e.id = d.id := by simpa using mem
    obtain ⟨e, last⟩ := Option.ne_none_iff_exists'.1
      (mt List.getLast?_eq_none_iff.1 (List.ne_nil_of_mem found))
    obtain ⟨mem', same⟩ := List.mem_filter.1 (List.mem_of_getLast? last)
    rw [find?, last, List.inj_on_of_nodup_map distinct mem' mem (by simpa using same)]

lemma size_eq_length (distinct : (ds.all.map Declaration.id).Nodup) : ds.size = ds.all.length := by
  have unrepeated (ids : List NodeId) (distinct : ids.Nodup) : ids.eraseDups = ids := by
    induction ids with
    | nil => rfl
    | cons id ids ih =>
      obtain ⟨absent, distinct⟩ := List.nodup_cons.1 distinct
      have others : ids.filter (fun other => !other == id) = ids :=
        List.filter_eq_self.2 fun other mem => by
          simpa using fun same : other = id => absent (same ▸ mem)
      rw [List.eraseDups_cons, others, ih distinct]
  rw [size, unrepeated _ distinct, List.length_map]

lemma resolve_eq_ok_iff (distinct : (ds.all.map Declaration.id).Nodup) :
    ds.resolve id = .ok d ↔ d ∈ ds.all ∧ d.id = id := by
  rw [← find?_eq_some_iff distinct, resolve]
  cases ds.find? id <;> simp

lemma resolve_eq_error_iff (distinct : (ds.all.map Declaration.id).Nodup) :
    ds.resolve id = .error (.notFound id) ↔ ∀ d ∈ ds.all, d.id ≠ id := by
  have absent : (∀ d ∈ ds.all, d.id ≠ id) ↔ ds.find? id = none := by
    rw [Option.eq_none_iff_forall_ne_some]
    exact forall_congr' fun d => by rw [Ne, Ne, find?_eq_some_iff distinct, not_and]
  rw [absent, resolve]
  cases ds.find? id <;> simp

lemma contract_of_mem (distinct : (ds.all.map Declaration.id).Nodup) {k : Contract}
    (mem : .contract k ∈ ds.all) : ds.contract k.id = .ok k := by
  have found : ds.resolve k.id = .ok (.contract k) := (resolve_eq_ok_iff distinct).2 ⟨mem, rfl⟩
  rw [contract, found]
  rfl

/-- What the contracts of a name decide. -/
lemma contractNamed_cases (distinct : (ds.all.map Declaration.id).Nodup) (name : String) :
    ds.contractsNamed name = [] ∧ ds.contractNamed name = .error (.contractNotFound name)
    ∨ (∃ k, ds.contractsNamed name = [.contract k] ∧ ds.contractNamed name = .ok k)
    ∨ 2 ≤ (ds.contractsNamed name).length ∧ ds.contractNamed name =
      .error (.ambiguousContract name (ds.contractsNamed name).length) := by
  have declared : ∀ d ∈ ds.contractsNamed name, d ∈ ds.all ∧ d.kind = .contract := by
    simp +contextual [contractsNamed]
  rw [contractNamed, ← contractsNamed]
  generalize ds.contractsNamed name = named at declared
  rcases named with _ | ⟨d, _ | ⟨e, rest⟩⟩
  · exact .inl ⟨rfl, rfl⟩
  · obtain ⟨mem, kind⟩ := declared d List.mem_cons_self
    cases d with
    | contract k => exact .inr (.inl ⟨k, rfl, contract_of_mem distinct mem⟩)
    | _ => cases kind
  · exact .inr (.inr ⟨by simp, rfl⟩)

end Declarations

namespace Compilation

variable {c : Compilation} {name : String}

/-- Where the contracts of a name stand. -/
def contractPlaces (c : Compilation) (name : String) : Set Place :=
  {p | ∃ k, c.declarationAt? p = some (.contract k) ∧ k.name = name}

lemma encard_contractPlaces (c : Compilation) (name : String) :
    (c.contractPlaces name).encard =
      ((Declarations.ofCompilation c).contractsNamed name).length := by
  rw [Declarations.contractsNamed, ← List.countP_eq_length_filter, ← Declarations.encard_places]
  congr 1
  ext p
  constructor
  · rintro ⟨k, there, rfl⟩
    exact ⟨.contract k, there, by simp [Declaration.kind, Declaration.name]⟩
  · rintro ⟨d, there, named⟩
    simp only [Bool.and_eq_true, decide_eq_true_eq] at named
    obtain ⟨kind, rfl⟩ := named
    cases d with
    | contract k => exact ⟨k, there, rfl⟩
    | _ => cases kind

lemma contractNamed_eq_ok_iff (distinct : c.DistinctIds) {k : Contract} :
    (Declarations.ofCompilation c).contractNamed name = .ok k ↔
      (c.contractPlaces name).encard = 1 ∧ k.name = name ∧
        ∃ p, c.declarationAt? p = some (.contract k) := by
  have counted := c.encard_contractPlaces name
  have named {k : Contract} : .contract k ∈ (Declarations.ofCompilation c).contractsNamed name ↔
      k.name = name ∧ ∃ p, c.declarationAt? p = some (.contract k) := by
    rw [Declarations.contractsNamed, List.mem_filter, Declarations.mem_ofCompilation_iff]
    simp only [Bool.and_eq_true, decide_eq_true_eq]
    exact ⟨fun ⟨there, _, same⟩ => ⟨same, there⟩, fun ⟨same, there⟩ => ⟨there, rfl, same⟩⟩
  rw [← named]
  rcases Declarations.contractNamed_cases (Declarations.nodup_ids distinct) name with
    ⟨none, refused⟩ | ⟨k', one, found⟩ | ⟨several, refused⟩
  · simp [refused, none]
  · rw [one] at counted
    simp [found, one, counted, eq_comm]
  · have many : (c.contractPlaces name).encard ≠ 1 := by
      rw [counted]
      exact_mod_cast (show _ ≠ 1 by omega)
    simp [refused, many]

lemma contractNamed_eq_ambiguous_iff (distinct : c.DistinctIds) {count : Nat} :
    (Declarations.ofCompilation c).contractNamed name = .error (.ambiguousContract name count) ↔
      2 ≤ count ∧ (c.contractPlaces name).encard = count := by
  have counted := c.encard_contractPlaces name
  rw [counted, Nat.cast_inj]
  rcases Declarations.contractNamed_cases (Declarations.nodup_ids distinct) name with
    ⟨none, refused⟩ | ⟨k', one, found⟩ | ⟨several, refused⟩
  · simp only [refused, none, List.length_nil]
    constructor
    · nofun
    · omega
  · simp only [found, one, List.length_singleton]
    constructor
    · nofun
    · omega
  · simp only [refused, Except.error.injEq, ResolutionError.ambiguousContract.injEq, true_and]
    omega

lemma contractNamed_eq_missing_iff (distinct : c.DistinctIds) :
    (Declarations.ofCompilation c).contractNamed name = .error (.contractNotFound name) ↔
      c.contractPlaces name = ∅ := by
  rw [← Set.encard_eq_zero, c.encard_contractPlaces name, Nat.cast_eq_zero]
  rcases Declarations.contractNamed_cases (Declarations.nodup_ids distinct) name with
    ⟨none, refused⟩ | ⟨k', one, found⟩ | ⟨several, refused⟩
  · simp [refused, none]
  · simp [found, one]
  · simp only [refused, Except.error.injEq, reduceCtorEq, false_iff]
    omega

/-- A declaration shares its name if there is another place with a declaration of the name. -/
lemma one_lt_sharing_iff {p : Place} {d : Declaration} (there : c.declarationAt? p = some d) :
    1 < (Declarations.ofCompilation c).sharing d.kind d.name ↔
      ∃ q e, q ≠ p ∧ c.declarationAt? q = some e ∧ e.kind = d.kind ∧ e.name = d.name := by
  have counted := Declarations.encard_places c fun e => e.kind = d.kind && e.name = d.name
  rw [Declarations.sharing, ← Nat.one_lt_cast (α := ℕ∞), ← counted,
    Set.one_lt_encard_iff_nontrivial]
  simp only [Bool.and_eq_true, decide_eq_true_eq]
  constructor
  · intro several
    obtain ⟨q, ⟨e, there', kind, name⟩, apart⟩ := several.exists_ne p
    exact ⟨q, e, apart, there', kind, name⟩
  · rintro ⟨q, e, apart, there', kind, name⟩
    exact Set.nontrivial_of_mem_mem_ne ⟨e, there', kind, name⟩ ⟨d, there, rfl, rfl⟩ apart

lemma distinctName?_eq_some_iff (distinct : c.DistinctIds) {id : NodeId} {name : String} :
    (Declarations.ofCompilation c).distinctName? id = some name ↔
      ∃ p d, c.declarationAt? p = some d ∧ d.id = id ∧ d.canonicalName? = some name ∧
        ∃ q e, q ≠ p ∧ c.declarationAt? q = some e ∧ e.kind = d.kind ∧ e.name = d.name := by
  simp only [Declarations.distinctName?, Option.bind_eq_some_iff, Option.ite_none_right_eq_some,
    Declarations.find?_eq_some_iff (Declarations.nodup_ids distinct),
    Declarations.mem_ofCompilation_iff]
  constructor
  · rintro ⟨d, ⟨⟨p, there⟩, rfl⟩, shared, named⟩
    exact ⟨p, d, there, rfl, named, (one_lt_sharing_iff there).1 shared⟩
  · rintro ⟨p, d, there, rfl, named, shared⟩
    exact ⟨d, ⟨⟨p, there⟩, rfl⟩, (one_lt_sharing_iff there).2 shared, named⟩

/-- The nodes at the top level of the files that declare something. -/
def topLevel (c : Compilation) : List SourceNode :=
  (c.sources.values.flatMap Source.nodes).filter (· ≠ .other)

lemma all_eq_topLevel (c : Compilation) :
    (Declarations.ofCompilation c).all = c.topLevel.flatMap SourceNode.declarations := by
  have declaring (ns : List SourceNode) :
      (ns.filter (· ≠ .other)).flatMap SourceNode.declarations =
        ns.flatMap SourceNode.declarations := by
    induction ns with
    | nil => rfl
    | cons n ns ih => cases n <;> simp [SourceNode.declarations, ← ih]
  rw [topLevel, declaring, List.flatMap_assoc]
  rfl

end Compilation

/-! ## Rearranged programs -/

namespace Declarations

variable {ds ds' : Declarations}

/-- Two programs give the same answers about ids and names. -/
structure SameAnswers (ds ds' : Declarations) : Prop where
  resolve : ∀ id, ds.resolve id = ds'.resolve id
  size : ds.size = ds'.size
  contractNamed : ∀ name, ds.contractNamed name = ds'.contractNamed name
  distinctName? : ∀ id, ds.distinctName? id = ds'.distinctName? id

lemma sameAnswers_of_perm (perm : ds.all.Perm ds'.all)
    (distinct : (ds.all.map Declaration.id).Nodup) : ds.SameAnswers ds' := by
  have distinct' : (ds'.all.map Declaration.id).Nodup := (perm.map _).nodup_iff.1 distinct
  have found (id : NodeId) : ds.find? id = ds'.find? id := Option.ext fun d => by
    rw [find?_eq_some_iff distinct, find?_eq_some_iff distinct', perm.mem_iff]
  have resolved (id : NodeId) : ds.resolve id = ds'.resolve id := by
    rw [resolve, resolve, found]
  refine ⟨resolved, ?_, fun name => ?_, fun id => ?_⟩
  · rw [size_eq_length distinct, size_eq_length distinct', perm.length_eq]
  · have named : (ds.contractsNamed name).Perm (ds'.contractsNamed name) := perm.filter _
    have answers := contractNamed_cases distinct name
    have answers' := contractNamed_cases distinct' name
    rcases answers with ⟨none, refused⟩ | ⟨k, one, found⟩ | ⟨several, refused⟩
    · rw [none, List.nil_perm] at named
      rcases answers' with ⟨-, refused'⟩ | ⟨k', one', -⟩ | ⟨several', -⟩
      · rw [refused, refused']
      · simp [named] at one'
      · simp [named] at several'
    · rw [one, List.singleton_perm] at named
      rcases answers' with ⟨none', -⟩ | ⟨k', one', found'⟩ | ⟨several', -⟩
      · simp [none'] at named
      · rw [found, found']
        simpa [one'] using named
      · simp [← named] at several'
    · rcases answers' with ⟨none', -⟩ | ⟨k', one', -⟩ | ⟨-, refused'⟩
      · simp [none'] at named
        simp [named] at several
      · simp [one'] at named
        simp [named] at several
      · rw [refused, refused', named.length_eq]
  · have shared (kind : DeclarationKind) (name : String) :
        ds.sharing kind name = ds'.sharing kind name := perm.countP_eq _
    simp only [distinctName?, found, shared]

end Declarations

namespace Compilation

/-- What a program is asked about ids and names, it answers by what is declared at its places. -/
structure Indexed (c : Compilation) (ds : Declarations) : Prop where
  resolved : ∀ id d, ds.resolve id = .ok d ↔ d.id = id ∧ ∃ p, c.declarationAt? p = some d
  notFound : ∀ id, ds.resolve id = .error (.notFound id) ↔
    ∀ p d, c.declarationAt? p = some d → d.id ≠ id
  size : {p | ∃ d, c.declarationAt? p = some d}.encard = ds.size
  named : ∀ name k, ds.contractNamed name = .ok k ↔
    (c.contractPlaces name).encard = 1 ∧ k.name = name ∧
      ∃ p, c.declarationAt? p = some (.contract k)
  ambiguous : ∀ name count, ds.contractNamed name = .error (.ambiguousContract name count) ↔
    2 ≤ count ∧ (c.contractPlaces name).encard = count
  missing : ∀ name, ds.contractNamed name = .error (.contractNotFound name) ↔
    c.contractPlaces name = ∅
  distinctName : ∀ id name, ds.distinctName? id = some name ↔
    ∃ p d, c.declarationAt? p = some d ∧ d.id = id ∧ d.canonicalName? = some name ∧
      ∃ q e, q ≠ p ∧ c.declarationAt? q = some e ∧ e.kind = d.kind ∧ e.name = d.name

/-- If no two places of a program declare one id, then ids and names refer to what is declared at
its places, and to the same in every program with these nodes at the top level of its files. -/
theorem declarations_indexed (c : Compilation) (distinct : c.DistinctIds) :
    c.Indexed (Declarations.ofCompilation c) ∧
    ∀ c' : Compilation, c.topLevel.Perm c'.topLevel →
      (Declarations.ofCompilation c).SameAnswers (Declarations.ofCompilation c') := by
  have ids := Declarations.nodup_ids distinct
  refine ⟨⟨fun id d => ?_, fun id => ?_, ?_, fun name k => contractNamed_eq_ok_iff distinct,
    fun name count => contractNamed_eq_ambiguous_iff distinct,
    fun name => contractNamed_eq_missing_iff distinct,
    fun id name => distinctName?_eq_some_iff distinct⟩, fun c' perm => ?_⟩
  · rw [Declarations.resolve_eq_ok_iff ids, Declarations.mem_ofCompilation_iff, and_comm]
  · rw [Declarations.resolve_eq_error_iff ids]
    simp only [Declarations.mem_ofCompilation_iff, forall_exists_index]
    exact forall_comm
  · have counted := Declarations.encard_places c fun _ => true
    rw [Declarations.size_eq_length ids]
    simpa using counted
  · apply Declarations.sameAnswers_of_perm _ ids
    rw [all_eq_topLevel, all_eq_topLevel]
    exact perm.flatMap_right _

lemma distinctIds_of_nodup
    (distinct : ((Declarations.ofCompilation c).all.map Declaration.id).Nodup) : c.DistinctIds := by
  intro p q d e first second same
  rw [← map_placed, List.map_map] at distinct
  exact (Prod.mk.inj (List.inj_on_of_nodup_map distinct (mem_placed_iff.2 first)
    (mem_placed_iff.2 second) same)).1

/-- A library that declares a struct. -/
def library (id : NodeId) (name : String) : Contract :=
  ⟨id, name, [id], [.struct ⟨id + 1, "Data", some (name ++ ".Data"), [], ""⟩], ""⟩

def librariesApart : Compilation := ⟨.ofList [
  ("a.sol", ⟨0, 10, "a.sol", [.other, .contract (library 1 "LibA")]⟩),
  ("b.sol", ⟨1, 11, "b.sol", [.contract (library 3 "LibB")]⟩)]⟩

def librariesTogether : Compilation := ⟨.ofList [
  ("b.sol", ⟨0, 10, "b.sol", [.contract (library 3 "LibB"), .contract (library 1 "LibA")]⟩)]⟩

/-- A struct goes by the name of its library, wherever the other library stands. -/
theorem libraries_indexed :
    (Declarations.ofCompilation librariesApart).distinctName? 2 = some "LibA.Data" ∧
    (Declarations.ofCompilation librariesTogether).distinctName? 2 = some "LibA.Data" := by
  have distinct : librariesApart.DistinctIds := distinctIds_of_nodup (by decide +kernel)
  have perm : librariesApart.topLevel.Perm librariesTogether.topLevel := .swap _ _ _
  obtain ⟨indexed, rearranged⟩ := declarations_indexed librariesApart distinct
  have named := (indexed.distinctName 2 "LibA.Data").2
    ⟨⟨"a.sol", 1, some 0⟩, _, rfl, rfl, rfl, ⟨"b.sol", 0, some 0⟩, _, by decide, rfl, rfl, rfl⟩
  exact ⟨named, ((rearranged _ perm).distinctName? 2).symm.trans named⟩

end Compilation

end UpgradeSafety
