import UpgradeSafety.Proofs.Compilation.Lookups
import UpgradeSafety.Proofs.TypeId.Renderings

/-!
# Programs with other node ids

The same program compiled with other node ids: every id is replaced, where it is
the id of a node, where it refers to one and where it stands inside a type
identifier, and everything else is left alone. Looking something up by id or by
name finds the same thing in both programs.
-/

namespace UpgradeSafety

/-- New numbers for the nodes that occur in a program. -/
structure Renumbering where
  occurs : Nat → Prop
  number : Nat → Nat
  injective : ∀ {m n}, occurs m → occurs n → number m = number n → m = n
  /-- A node id has 63 bits. -/
  small : ∀ {m}, occurs m → m < Numeral.bound63 ∧ number m < Numeral.bound63

/-- The tree with other node ids. -/
def TypeTree.renumber (number : Nat → Nat) : TypeTree → TypeTree
  | .elementary id => .elementary id
  | .declared kind name node pointer => .declared kind name (number node) pointer
  | .mapping key value => .mapping (key.renumber number) (value.renumber number)
  | .array element length pointer => .array (element.renumber number) length pointer

/-! ## What it is for one program to be another with new numbers -/

section Renumbered

variable (f : Renumbering)

/-- Whether `n'` is the new number of the node `n`. -/
def Renumbering.Moves (n n' : NodeId) : Prop :=
  ∃ m, f.occurs m ∧ n = (m : NodeId) ∧ n' = (f.number m : NodeId)

/-- Two encodings of a type, with the old and with the new node ids. -/
def Renumbering.Encodes (raw raw' : String) : Prop :=
  ∃ t : TypeTree, t.KeysPlain ∧ t.Lettered ∧ (∀ node ∈ t.nodes, f.occurs node) ∧
    raw = t.encode ∧ raw' = (t.renumber f.number).encode

structure TypeDescription.Renumbered (d d' : TypeDescription) : Prop where
  identifier : Option.Rel f.Encodes d.identifier d'.identifier
  text : d.text = d'.text

inductive TypeName.Renumbered : TypeName → TypeName → Prop where
  | elementary {i i' : NodeId} {d d' : TypeDescription} (id : f.Moves i i') (name : String)
      (description : d.Renumbered f d') :
      Renumbered (.elementary i name d) (.elementary i' name d')
  | declared {i i' r r' : NodeId} {d d' : TypeDescription} (id : f.Moves i i')
      (declaration : f.Moves r r') (name : Option String) (description : d.Renumbered f d') :
      Renumbered (.declared i r name d) (.declared i' r' name d')
  | mapping {i i' : NodeId} {k k' v v' : TypeName} {d d' : TypeDescription} (id : f.Moves i i')
      (key : Renumbered k k') (value : Renumbered v v') (description : d.Renumbered f d') :
      Renumbered (.mapping i k v d) (.mapping i' k' v' d')
  | array {i i' : NodeId} {e e' : TypeName} {d d' : TypeDescription} (id : f.Moves i i')
      (element : Renumbered e e') (description : d.Renumbered f d') :
      Renumbered (.array i e d) (.array i' e' d')
  | function {i i' : NodeId} {d d' : TypeDescription} (id : f.Moves i i')
      (description : d.Renumbered f d') : Renumbered (.function i d) (.function i' d')

structure Variable.Renumbered (v v' : Variable) : Prop where
  id : f.Moves v.id v'.id
  name : v.name = v'.name
  type : v.type.Renumbered f v'.type
  description : v.description.Renumbered f v'.description
  constant : v.constant = v'.constant
  mutability : v.mutability = v'.mutability
  stateVariable : v.stateVariable = v'.stateVariable
  documentation : v.documentation = v'.documentation
  src : v.src = v'.src

structure StructDefinition.Renumbered (s s' : StructDefinition) : Prop where
  id : f.Moves s.id s'.id
  name : s.name = s'.name
  canonicalName : s.canonicalName = s'.canonicalName
  members : List.Forall₂ (Variable.Renumbered f) s.members s'.members
  src : s.src = s'.src

structure EnumDefinition.Renumbered (e e' : EnumDefinition) : Prop where
  id : f.Moves e.id e'.id
  name : e.name = e'.name
  canonicalName : e.canonicalName = e'.canonicalName
  members : e.members = e'.members
  src : e.src = e'.src

structure ValueTypeDefinition.Renumbered (t t' : ValueTypeDefinition) : Prop where
  id : f.Moves t.id t'.id
  name : t.name = t'.name
  canonicalName : t.canonicalName = t'.canonicalName
  underlying : t.underlying.Renumbered f t'.underlying
  src : t.src = t'.src

inductive ContractNode.Renumbered : ContractNode → ContractNode → Prop where
  | stored {v v' : Variable} (h : v.Renumbered f v') : Renumbered (.variable v) (.variable v')
  | struct {s s' : StructDefinition} (h : s.Renumbered f s') : Renumbered (.struct s) (.struct s')
  | enum {e e' : EnumDefinition} (h : e.Renumbered f e') : Renumbered (.enum e) (.enum e')
  | valueType {t t' : ValueTypeDefinition} (h : t.Renumbered f t') :
      Renumbered (.valueType t) (.valueType t')
  | other : Renumbered .other .other

structure Contract.Renumbered (c c' : Contract) : Prop where
  id : f.Moves c.id c'.id
  name : c.name = c'.name
  lineage : List.Forall₂ f.Moves c.lineage c'.lineage
  nodes : List.Forall₂ (ContractNode.Renumbered f) c.nodes c'.nodes
  src : c.src = c'.src

inductive SourceNode.Renumbered : SourceNode → SourceNode → Prop where
  | contract {c c' : Contract} (h : c.Renumbered f c') : Renumbered (.contract c) (.contract c')
  | struct {s s' : StructDefinition} (h : s.Renumbered f s') : Renumbered (.struct s) (.struct s')
  | enum {e e' : EnumDefinition} (h : e.Renumbered f e') : Renumbered (.enum e) (.enum e')
  | valueType {t t' : ValueTypeDefinition} (h : t.Renumbered f t') :
      Renumbered (.valueType t) (.valueType t')
  | other : Renumbered .other .other

structure Source.Renumbered (s s' : Source) : Prop where
  index : s.index = s'.index
  unit : f.Moves s.unit s'.unit
  path : s.path = s'.path
  nodes : List.Forall₂ (SourceNode.Renumbered f) s.nodes s'.nodes

/-- The same source files with new node ids. -/
def Compilation.Renumbered (p p' : Compilation) : Prop :=
  List.Forall₂ (fun e e' => e.1 = e'.1 ∧ e.2.Renumbered f e'.2) p.sources.entries
    p'.sources.entries

inductive Declaration.Renumbered : Declaration → Declaration → Prop where
  | contract {c c' : Contract} (h : c.Renumbered f c') : Renumbered (.contract c) (.contract c')
  | struct {s s' : StructDefinition} (h : s.Renumbered f s') : Renumbered (.struct s) (.struct s')
  | enum {e e' : EnumDefinition} (h : e.Renumbered f e') : Renumbered (.enum e) (.enum e')
  | valueType {t t' : ValueTypeDefinition} (h : t.Renumbered f t') :
      Renumbered (.valueType t) (.valueType t')

/-- The same declarations with new node ids. -/
def Declarations.Renumbered (ds ds' : Declarations) : Prop :=
  List.Forall₂ (Declaration.Renumbered f) ds.all ds'.all

end Renumbered

variable {f : Renumbering}

namespace Renumbering

/-- Different nodes keep apart. -/
lemma Moves.eq_iff {m m' n n' : NodeId} (hm : f.Moves m m') (hn : f.Moves n n') :
    m = n ↔ m' = n' := by
  obtain ⟨a, occursA, rfl, rfl⟩ := hm
  obtain ⟨b, occursB, rfl, rfl⟩ := hn
  constructor
  · intro same
    rw [Int.ofNat_inj.1 same]
  · intro same
    rw [f.injective occursA occursB (Int.ofNat_inj.1 same)]

end Renumbering

/-! ## Annotations -/

namespace TypeName.Renumbered

variable {t t' : TypeName}

lemma description (h : t.Renumbered f t') : t.description.Renumbered f t'.description := by
  cases h <;> assumption

lemma declaration? (h : t.Renumbered f t') :
    Option.Rel f.Moves t.declaration? t'.declaration? := by
  cases h with
  | declared id declaration name description => exact .some declaration
  | _ => exact .none

lemma count (h : t.Renumbered f t') : t.count = t'.count := by
  induction h with
  | mapping _ _ _ _ ihk ihv => rw [TypeName.count, TypeName.count, ihk, ihv]
  | array _ _ _ ih => rw [TypeName.count, TypeName.count, ih]
  | _ => rfl

end TypeName.Renumbered

/-! ## Declarations -/

namespace Declaration.Renumbered

variable {d d' : Declaration}

lemma id (h : d.Renumbered f d') : f.Moves d.id d'.id := by
  cases h with
  | contract h => exact h.id
  | struct h => exact h.id
  | enum h => exact h.id
  | valueType h => exact h.id

lemma kind (h : d.Renumbered f d') : d.kind = d'.kind := by
  cases h <;> rfl

lemma name (h : d.Renumbered f d') : d.name = d'.name := by
  cases h with
  | contract h => exact h.name
  | struct h => exact h.name
  | enum h => exact h.name
  | valueType h => exact h.name

lemma canonicalName? (h : d.Renumbered f d') : d.canonicalName? = d'.canonicalName? := by
  cases h with
  | contract h => rfl
  | struct h => exact h.canonicalName
  | enum h => exact h.canonicalName
  | valueType h => exact h.canonicalName

end Declaration.Renumbered

lemma Contract.Renumbered.allVariables {c c' : Contract} (h : c.Renumbered f c') :
    List.Forall₂ (Variable.Renumbered f) c.allVariables c'.allVariables := by
  refine List.rel_filterMap (fun node node' hn => ?_) h.nodes
  cases hn with
  | stored h => exact .some h
  | _ => exact .none

lemma Contract.Renumbered.storedVariables {c c' : Contract} (h : c.Renumbered f c') :
    List.Forall₂ (Variable.Renumbered f) c.storedVariables c'.storedVariables := by
  refine forall₂_filter h.allVariables fun v v' hv => ?_
  rw [Variable.isStored, Variable.isStored, hv.constant, hv.mutability]

lemma Variable.Renumbered.earlierLabel? {v v' : Variable} (h : v.Renumbered f v') :
    v.earlierLabel? = v'.earlierLabel? := by
  rw [Variable.earlierLabel?, Variable.earlierLabel?, h.documentation]

lemma Declaration.Renumbered.annotations {d d' : Declaration} (h : d.Renumbered f d') :
    List.Forall₂ (TypeName.Renumbered f) d.annotations d'.annotations := by
  have types {vs vs' : List Variable} (h : List.Forall₂ (Variable.Renumbered f) vs vs') :
      List.Forall₂ (TypeName.Renumbered f) (vs.map Variable.type) (vs'.map Variable.type) :=
    List.rel_map (fun _ _ hv => hv.type) h
  cases h with
  | contract h => exact types h.allVariables
  | struct h => exact types h.members
  | enum h => exact .nil
  | valueType h => exact .cons h.underlying .nil

lemma SourceNode.Renumbered.declarations {s s' : SourceNode} (h : s.Renumbered f s') :
    List.Forall₂ (Declaration.Renumbered f) s.declarations s'.declarations := by
  cases h with
  | contract h =>
    refine List.rel_append (List.rel_filterMap (fun node node' hn => ?_) h.nodes)
      (.cons (.contract h) .nil)
    cases hn with
    | struct h => exact .some (.struct h)
    | enum h => exact .some (.enum h)
    | valueType h => exact .some (.valueType h)
    | stored h => exact .none
    | other => exact .none
  | struct h => exact .cons (.struct h) .nil
  | enum h => exact .cons (.enum h) .nil
  | valueType h => exact .cons (.valueType h) .nil
  | other => exact .nil

lemma Compilation.Renumbered.declarations {p p' : Compilation} (h : p.Renumbered f p') :
    (Declarations.ofCompilation p).Renumbered f (.ofCompilation p') := by
  have sources : List.Forall₂ (Source.Renumbered f) p.sources.values p'.sources.values :=
    List.rel_map (fun _ _ he => he.2) h
  exact List.rel_flatMap sources fun _ _ hs =>
    List.rel_flatMap hs.nodes fun _ _ hn => hn.declarations

/-! ## Looking things up -/

namespace Declarations.Renumbered

variable {ds ds' : Declarations}

lemma find? (h : ds.Renumbered f ds') {n n' : NodeId} (hn : f.Moves n n') :
    Option.Rel (Declaration.Renumbered f) (ds.find? n) (ds'.find? n') := by
  refine forall₂_getLast? (forall₂_filter h fun d d' hd => ?_)
  exact decide_eq_decide.2 (hd.id.eq_iff hn)

lemma sharing (h : ds.Renumbered f ds') (kind : DeclarationKind) (name : String) :
    ds.sharing kind name = ds'.sharing kind name := by
  rw [Declarations.sharing, Declarations.sharing, List.countP_eq_length_filter,
    List.countP_eq_length_filter]
  refine (forall₂_filter h fun d d' hd => ?_).length_eq
  rw [hd.kind, hd.name]

/-- A declaration has the same name in canonical ids. -/
lemma distinctName? (h : ds.Renumbered f ds') {n n' : NodeId} (hn : f.Moves n n') :
    ds.distinctName? n = ds'.distinctName? n' := by
  have found := h.find? hn
  rw [Declarations.distinctName?, Declarations.distinctName?]
  generalize ds.find? n = d, ds'.find? n' = d' at found ⊢
  cases found with
  | none => rfl
  | some hd =>
    simp only [Option.bind_some]
    rw [hd.kind, hd.name, hd.canonicalName?, h.sharing]

end Declarations.Renumbered

end UpgradeSafety
