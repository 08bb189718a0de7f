import UpgradeSafety.Proofs.Comparison.References
import UpgradeSafety.Proofs.Compilation.Occurrences
import UpgradeSafety.Proofs.Extraction.Layouts

/-!
# Extracted layouts are complete

Every type that an extracted layout mentions has an entry in it. The members of
structs and enums are those of their declarations, and the size of every type is
what the packing rules make of its kind.
-/

namespace UpgradeSafety

open Extraction

namespace Layout

/-- The id is that of a user-defined value type in use, whose values are those of another type. -/
def StandsFor (l : Layout) (ds : Declarations) (c : Contract) (id underlying : TypeId) : Prop :=
  (∃ info, l.type? id = some info ∧ info.kind = .value) ∧
    ∃ t definition, ds.Uses c t ∧ ds.idOf? t = some id ∧
      ds.declarationOf? t = some (.valueType definition) ∧
      ds.idOf? definition.underlying = some underlying

/-- The footprint of a type, worked out from its kind and from the types that it is made of. -/
inductive Measures (l : Layout) (ds : Declarations) (c : Contract) : TypeId → Footprint → Prop where
  | elementary {id : TypeId} {info : TypeItem} {f : Footprint} (found : l.type? id = some info)
      (kind : info.kind = .value) (size : Footprint.ofElementary? id = some f) :
      Measures l ds c id f
  | valueType {id underlying : TypeId} {f : Footprint} (stands : l.StandsFor ds c id underlying)
      (inner : Measures l ds c underlying f) : Measures l ds c id f
  | contract {id : TypeId} {info : TypeItem} (found : l.type? id = some info)
      (kind : info.kind = .contract) : Measures l ds c id .contract
  | enum {id : TypeId} {info : TypeItem} {members : List String} (found : l.type? id = some info)
      (kind : info.kind = .enum (some members)) :
      Measures l ds c id (.packed (Footprint.enumBytes members.length))
  | mapping {id key value : TypeId} {info : TypeItem} (found : l.type? id = some info)
      (kind : info.kind = .mapping key value) : Measures l ds c id .word
  | dynamicArray {id element : TypeId} {info : TypeItem} (found : l.type? id = some info)
      (kind : info.kind = .array element .dynamic) : Measures l ds c id .word
  | fixedArray {id element : TypeId} {info : TypeItem} {length : Nat} {g f : Footprint}
      (found : l.type? id = some info) (kind : info.kind = .array element (.fixed length))
      (inner : Measures l ds c element g) (size : g.fixedArray? length = some f) :
      Measures l ds c id f
  | struct {id : TypeId} {info : TypeItem} {members : List StructMember} {fs : List Footprint}
      {f : Footprint} (found : l.type? id = some info)
      (kind : info.kind = .struct (some members)) (lengths : members.length = fs.length)
      (inner : ∀ p ∈ members.zip fs, Measures l ds c p.1.type p.2)
      (size : Footprint.struct? fs = some f) : Measures l ds c id f

/-- The members of a struct are those of a declaration in use, under their canonical ids. -/
def StructDeclared (ds : Declarations) (c : Contract) (id : TypeId)
    (members : List StructMember) : Prop :=
  ∃ t s, ds.Uses c t ∧ ds.idOf? t = some id ∧ ds.declarationOf? t = some (.struct s) ∧
    members.map StructMember.label = s.members.map Variable.name ∧
    s.members.map (fun m => ds.idOf? m.type) = members.map fun m => some m.type

/-- The members of an enum are those of a declaration in use. -/
def EnumDeclared (ds : Declarations) (c : Contract) (id : TypeId) (members : List String) : Prop :=
  ∃ t e, ds.Uses c t ∧ ds.idOf? t = some id ∧ ds.declarationOf? t = some (.enum e) ∧
    members = e.members

/-- Nothing is missing in a layout of a contract. -/
structure Complete (l : Layout) (ds : Declarations) (c : Contract) : Prop where
  items : ∀ item ∈ l.storage, ∃ info, l.type? item.type = some info
  references : ∀ {id info}, l.type? id = some info →
    ∀ inner ∈ info.kind.references, ∃ info', l.type? inner = some info'
  structs : ∀ {id info members}, l.type? id = some info → info.kind = .struct members →
    ∃ known, members = some known ∧ StructDeclared ds c id known
  enums : ∀ {id info members}, l.type? id = some info → info.kind = .enum members →
    ∃ known, members = some known ∧ EnumDeclared ds c id known
  sized : ∀ {id info}, l.type? id = some info →
    ∃ f, l.Measures ds c id f ∧ info.numberOfBytes = f.bytes

end Layout

/-! ## What an entry comes from -/

lemma Describes.references {id : TypeId} {t : TypeName} {d : Option Declaration}
    {ids : List TypeId} {kind : TypeKind} {rule : SizeRule} (h : Describes id t d ids kind rule) :
    kind.references ⊆ ids := by
  cases h with
  | elementary => exact List.nil_subset _
  | function => exact List.nil_subset _
  | mapping => exact List.Subset.refl _
  | dynamicArray => exact List.Subset.refl _
  | fixedArray => exact List.Subset.refl _
  | contract => exact List.nil_subset _
  | enum => exact List.nil_subset _
  | valueType => exact List.nil_subset _
  | struct => exact List.Subset.refl _

lemma Placed.map_fst_zip {free : Position} {items : List StorageItem} {fs : List Footprint}
    (placed : Placed free items fs) : (items.zip fs).map Prod.fst = items :=
  List.map_fst_zip (Nat.le_of_eq placed.length_eq)

namespace Extracted

variable {ds : Declarations} {c : Contract} {l : Layout} {rules : Table SizeRule}
  {fs : List Footprint} {id : TypeId}

/-- The entry of a type with a size rule, and the annotation that accounts for both. -/
lemma account_of_rule (whole : Extracted ds c l rules fs) {rule : SizeRule}
    (hr : rules.find? id = some rule) :
    ∃ info t ids, l.type? id = some info ∧
      Account ds (ds.Uses c) l.types id info.kind rule t ids := by
  obtain ⟨info, found⟩ := whole.entered hr
  obtain ⟨rule', hr', t, ids, account⟩ := whole.accounted found
  cases Option.some.inj (hr.symm.trans hr')
  exact ⟨info, t, ids, found, account⟩

/-- A footprint that follows from the size rules is what the kinds come to. -/
lemma measures (whole : Extracted ds c l rules fs) {f : Footprint}
    (has : HasFootprint rules id f) : l.Measures ds c id f := by
  induction has with
  | known rule =>
    obtain ⟨info, t, ids, found, account⟩ := whole.account_of_rule rule
    have describes := account.describes
    generalize ds.declarationOf? t = d, kind : info.kind = what at describes
    cases describes with
    | elementary size => exact .elementary found kind size
    | function size => exact .elementary found kind size
    | mapping => exact .mapping found kind
    | dynamicArray => exact .dynamicArray found kind
    | contract => exact .contract found kind
    | enum e => exact .enum found kind
  | @sameAs id other f rule _ ih =>
    obtain ⟨info, t, ids, found, account⟩ := whole.account_of_rule rule
    have describes := account.describes
    have inner := account.inner
    rw [Declarations.inside] at inner
    generalize declares : ds.declarationOf? t = d, kind : info.kind = what at describes inner
    cases describes with
    | valueType definition underlying =>
      have named : ds.idOf? definition.underlying = some other := by
        simpa [TypeName.parts] using inner
      have stands : l.StandsFor ds c id other :=
        ⟨⟨info, found, kind⟩, _, definition, account.used, account.named, declares, named⟩
      exact .valueType stands ih
  | fixedArray rule _ size ih =>
    obtain ⟨info, t, ids, found, account⟩ := whole.account_of_rule rule
    have describes := account.describes
    generalize ds.declarationOf? t = d, kind : info.kind = what at describes
    cases describes with
    | fixedArray => exact .fixedArray found kind ih size
  | @struct id members fs f rule lengths _ size ih =>
    obtain ⟨info, t, ids, found, account⟩ := whole.account_of_rule rule
    have describes := account.describes
    generalize ds.declarationOf? t = d, kind : info.kind = what at describes
    cases describes with
    | struct s members =>
      refine .struct found kind (by simpa using lengths) (fun p hp => ?_) size
      apply ih (p.1.type, p.2)
      rw [List.zip_map_left]
      exact List.mem_map_of_mem hp

/-- What an entered type refers to is entered as well. -/
lemma refers (whole : Extracted ds c l rules fs) {info : TypeItem}
    (found : l.type? id = some info) {u : TypeId} (inside : u ∈ info.kind.references) :
    ∃ info', l.type? u = some info' := by
  obtain ⟨_, _, _, _, account⟩ := whole.accounted found
  exact account.known u (account.describes.references inside)

lemma structDeclared (whole : Extracted ds c l rules fs) {info : TypeItem}
    {members : Option (List StructMember)} (found : l.type? id = some info)
    (kind : info.kind = .struct members) :
    ∃ known, members = some known ∧ Layout.StructDeclared ds c id known := by
  obtain ⟨rule, _, t, ids, account⟩ := whole.accounted found
  have describes := account.describes
  have inner := account.inner
  rw [Declarations.inside] at inner
  rw [kind] at describes
  generalize declares : ds.declarationOf? t = d at describes inner
  cases describes with
  | struct s known labels =>
    refine ⟨known, rfl, _, s, account.used, account.named, declares, labels, ?_⟩
    simpa [TypeName.parts, Function.comp_def] using inner

lemma enumDeclared (whole : Extracted ds c l rules fs) {info : TypeItem}
    {members : Option (List String)} (found : l.type? id = some info)
    (kind : info.kind = .enum members) :
    ∃ known, members = some known ∧ Layout.EnumDeclared ds c id known := by
  obtain ⟨rule, _, t, ids, account⟩ := whole.accounted found
  have describes := account.describes
  rw [kind] at describes
  generalize declares : ds.declarationOf? t = d at describes
  cases describes with
  | enum e => exact ⟨e.members, rfl, _, e, account.used, account.named, declares, rfl⟩

lemma complete (whole : Extracted ds c l rules fs) : l.Complete ds c where
  items item mem := by
    rw [← whole.placed.map_fst_zip] at mem
    obtain ⟨q, hq, rfl⟩ := List.mem_map.1 mem
    obtain ⟨_, info, found, _⟩ := whole.stored q hq
    exact ⟨info, found⟩
  references found _ inside := whole.refers found inside
  structs := whole.structDeclared
  enums := whole.enumDeclared
  sized found := by
    obtain ⟨f, has, bytes⟩ := whole.sized found
    exact ⟨f, whole.measures has, bytes⟩

end Extracted

/--
Nothing is missing in an extracted layout: every type that it mentions has an entry,
structs and enums have the members of their declarations, and every size is what the
packing rules make of the kind.
-/
theorem extracted_complete {ds : Declarations} {decode : String → String} {c : Contract}
    {l : Layout} (ran : layout ds decode c = .ok l) : l.Complete ds c := by
  obtain ⟨rules, fs, whole⟩ := extracted ran
  exact whole.complete

/-! ### A struct that is met again among its members -/

/-- A node with its children, which is met again while it is being registered. -/
def treeNode : StructDefinition :=
  ⟨1, "Node", some "Tree.Node",
    [plainVariable 2 "weight" (elementaryType 3 "uint64"),
    plainVariable 4 "children" (.array 5
      (.declared 6 1 (some "Node") ⟨some "t_struct$_Node_$1_storage", some "struct Tree.Node"⟩)
      ⟨some "t_array$_t_struct$_Node_$1_storage_$dyn_storage", some "struct Tree.Node[]"⟩),
    plainVariable 7 "leaf" (elementaryType 8 "bool")], ""⟩

/-- A contract that keeps one node. -/
def treeContract : Contract :=
  ⟨9, "Tree", [9], [.struct treeNode, .variable (plainVariable 10 "root"
    (.declared 11 1 (some "Node") ⟨some "t_struct$_Node_$1_storage", some "struct Tree.Node"⟩))],
    ""⟩

def treeProgram : Declarations := ⟨[.struct treeNode, .contract treeContract]⟩

/-- The entry of the node, which takes three slots. -/
def treeNodeEntry : TypeItem :=
  ⟨"struct Tree.Node", 96, .struct (some
    [⟨"weight", "t_uint64"⟩, ⟨"children", "t_array(t_struct(Node)storage)dyn_storage"⟩,
      ⟨"leaf", "t_bool"⟩])⟩

theorem treeProgram_complete :
    ∃ l, layout treeProgram id treeContract = .ok l ∧ l.Complete treeProgram treeContract ∧
      l.type? "t_struct(Node)storage" = some treeNodeEntry := by
  obtain ⟨l, ran, node⟩ := layout_of_check (layout treeProgram id treeContract)
    (fun l => l.type? "t_struct(Node)storage" = some treeNodeEntry) (by decide +kernel)
  exact ⟨l, ran, extracted_complete ran, of_decide_eq_true node⟩

end UpgradeSafety
