import UpgradeSafety.Compilation.Document
import UpgradeSafety.Proofs.Json.RoundTrips

/-!
# Compiler output that is written back

Every part of a compiled program is written as a document that is read as the
same part, with the ignored nodes as ignored ones and what is absent as absent.
The only limit is how deeply the documents of texts may be nested.
-/

namespace UpgradeSafety

open Json (orNull)

/-! ## Numbers of the size that documents have -/

/-- Whether an id is a signed 64-bit number. -/
def NodeId.Fits (id : NodeId) : Prop :=
  -Int.ofNat Numeral.bound63 ≤ id ∧ id < Int.ofNat Numeral.bound63

instance (id : NodeId) : Decidable (NodeId.Fits id) := inferInstanceAs (Decidable (_ ∧ _))

def TypeName.Fits : TypeName → Prop
  | .elementary id _ _ => NodeId.Fits id
  | .declared id declaration _ _ => NodeId.Fits id ∧ NodeId.Fits declaration
  | .mapping id key value _ => NodeId.Fits id ∧ key.Fits ∧ value.Fits
  | .array id element _ => NodeId.Fits id ∧ element.Fits
  | .function id _ => NodeId.Fits id

structure Variable.Fits (v : Variable) : Prop where
  id : NodeId.Fits v.id
  type : v.type.Fits

structure StructDefinition.Fits (s : StructDefinition) : Prop where
  id : NodeId.Fits s.id
  members : ∀ v ∈ s.members, v.Fits

structure EnumDefinition.Fits (e : EnumDefinition) : Prop where
  id : NodeId.Fits e.id

structure ValueTypeDefinition.Fits (t : ValueTypeDefinition) : Prop where
  id : NodeId.Fits t.id
  underlying : t.underlying.Fits

def ContractNode.Fits : ContractNode → Prop
  | .variable v => v.Fits
  | .struct s => s.Fits
  | .enum e => e.Fits
  | .valueType t => t.Fits
  | .other => True

structure Contract.Fits (c : Contract) : Prop where
  id : NodeId.Fits c.id
  lineage : ∀ id ∈ c.lineage, NodeId.Fits id
  nodes : ∀ node ∈ c.nodes, node.Fits

def SourceNode.Fits : SourceNode → Prop
  | .contract c => c.Fits
  | .struct s => s.Fits
  | .enum e => e.Fits
  | .valueType t => t.Fits
  | .other => True

structure Source.Fits (s : Source) : Prop where
  index : s.index < Numeral.bound32
  unit : NodeId.Fits s.unit
  nodes : ∀ node ∈ s.nodes, node.Fits

/-- Whether every number in the program is one that its field can have. -/
def Compilation.Fits (c : Compilation) : Prop := ∀ s ∈ c.sources.values, s.Fits

/-! ## Reading back -/

namespace Json

lemma asSigned64?_integer {id : NodeId} (fits : NodeId.Fits id) :
    asSigned64? (.integer id) = some id := if_pos fits

lemma isPlain_id {id : NodeId} (fits : NodeId.Fits id) : (integer id).isPlain = true := by
  have wider : Int.ofNat Numeral.bound63 ≤ Int.ofNat Numeral.bound64 := by decide
  exact isPlain_integer fits.1 (Int.lt_of_lt_of_le fits.2 wider)

end Json

@[simp] lemma TypeDescription.ofJson?_toJson (d : TypeDescription) : ofJson? d.toJson = some d := by
  simp [ofJson?, toJson]

@[simp] lemma node?_object {name : String} {ms : Json.Members}
    (once : "nodeType" ∉ ms.map Prod.fst) :
    node? (.object (("nodeType", .string name) :: ms)) =
      some (.string name, .object (("nodeType", .string name) :: ms)) :=
  Json.tagged?_object once

/-- An annotation is read with enough fuel for its depth. -/
lemma TypeName.ofJsonWithin?_toJson {t : TypeName} (fits : t.Fits) {fuel : Nat}
    (enough : t.toJson.depth ≤ fuel) : ofJsonWithin? fuel t.toJson = some t := by
  induction fuel generalizing t with
  | zero => cases t <;> exact absurd enough (Nat.not_succ_le_zero _)
  | succ fuel ih =>
    cases t with
    | elementary id name d =>
      have id := Json.asSigned64?_integer fits
      simp [ofJsonWithin?, toJson, nodeType, TypeDescription.ofMembers?, id]
    | declared id declaration name d =>
      have id := Json.asSigned64?_integer fits.1
      have declaration := Json.asSigned64?_integer fits.2
      simp [ofJsonWithin?, toJson, nodeType, declaredOfMembers?, TypeDescription.ofMembers?, id,
        declaration]
    | mapping id key value d =>
      have id := Json.asSigned64?_integer fits.1
      have inside := Json.depthOfMembers_le_iff.1 (Nat.le_of_succ_le_succ enough)
      have key := ih fits.2.1 (inside ("keyType", key.toJson) (by simp))
      have value := ih fits.2.2 (inside ("valueType", value.toJson) (by simp))
      simp [ofJsonWithin?, toJson, nodeType, TypeDescription.ofMembers?, id, key, value]
    | array id element d =>
      have id := Json.asSigned64?_integer fits.1
      have inside := Json.depthOfMembers_le_iff.1 (Nat.le_of_succ_le_succ enough)
      have element := ih fits.2 (inside ("baseType", element.toJson) (by simp))
      simp [ofJsonWithin?, toJson, nodeType, TypeDescription.ofMembers?, id, element]
    | function id d =>
      have id := Json.asSigned64?_integer fits
      simp [ofJsonWithin?, toJson, nodeType, TypeDescription.ofMembers?, id]

lemma TypeName.ofJson?_toJson {t : TypeName} (fits : t.Fits) : ofJson? t.toJson = some t :=
  ofJsonWithin?_toJson fits (Nat.le_refl _)

lemma Mutability.ofJson?_toJson (m : Mutability) : ofJson? m.toJson = some m := by
  cases m <;> rfl

lemma Documentation.ofJson?_toJson (d : Documentation) : ofJson? d.toJson = some d := by
  cases d <;> rfl

lemma Variable.ofMembers?_toMembers {v : Variable} (fits : v.Fits) :
    ofMembers? v.toMembers = some v := by
  have id := Json.asSigned64?_integer fits.id
  have type := TypeName.ofJson?_toJson fits.type
  have mutability : Json.asNullable? Mutability.ofJson? (orNull Mutability.toJson v.mutability) =
      some v.mutability :=
    Json.asNullable?_orNull (fun _ _ => Json.noConfusion) fun m _ => m.ofJson?_toJson
  have documentation : Json.asNullable? Documentation.ofJson?
      (orNull Documentation.toJson v.documentation) = some v.documentation :=
    Json.asNullable?_orNull (fun d _ => by cases d <;> exact Json.noConfusion)
      fun d _ => d.ofJson?_toJson
  simp [ofMembers?, toMembers, TypeDescription.ofMembers?, id, type, mutability, documentation]

lemma Variable.ofJson?_toJson {v : Variable} (fits : v.Fits) : ofJson? v.toJson = some v := by
  rw [ofJson?, toJson, Json.asRecord?_bind, ofMembers?_toMembers fits]

lemma StructDefinition.ofMembers?_toMembers {s : StructDefinition} (fits : s.Fits) :
    ofMembers? s.toMembers = some s := by
  have id := Json.asSigned64?_integer fits.id
  have members : Json.asList? Variable.ofJson? (.array (s.members.map Variable.toJson)) =
      some s.members :=
    Json.asList?_map fun v member => Variable.ofJson?_toJson (fits.members v member)
  simp [ofMembers?, toMembers, definitionMembers, id, members]

lemma EnumDefinition.ofMembers?_toMembers {e : EnumDefinition} (fits : e.Fits) :
    ofMembers? e.toMembers = some e := by
  have id := Json.asSigned64?_integer fits.id
  have members : Json.asList? memberOfJson?
      (.array (e.members.map fun name => .object [("name", .string name)])) = some e.members :=
    Json.asList?_map fun name _ => rfl
  simp [ofMembers?, toMembers, definitionMembers, id, members]

lemma ValueTypeDefinition.ofMembers?_toMembers {t : ValueTypeDefinition} (fits : t.Fits) :
    ofMembers? t.toMembers = some t := by
  have id := Json.asSigned64?_integer fits.id
  have underlying := TypeName.ofJson?_toJson fits.underlying
  simp [ofMembers?, toMembers, definitionMembers, id, underlying]

/-! ## Nodes -/

section

variable (name : String) (ms : Json.Members)

/-- The type of a node in front of its members does not matter to them. -/
@[simp] lemma Variable.ofJson?_tagged :
    Variable.ofJson? (.object (("nodeType", .string name) :: ms)) = Variable.ofMembers? ms := by
  simp [ofJson?, ofMembers?, TypeDescription.ofMembers?]

@[simp] lemma StructDefinition.ofJson?_tagged :
    StructDefinition.ofJson? (.object (("nodeType", .string name) :: ms)) =
      StructDefinition.ofMembers? ms := by
  simp [ofJson?, ofMembers?]

@[simp] lemma EnumDefinition.ofJson?_tagged :
    EnumDefinition.ofJson? (.object (("nodeType", .string name) :: ms)) =
      EnumDefinition.ofMembers? ms := by
  simp [ofJson?, ofMembers?]

@[simp] lemma ValueTypeDefinition.ofJson?_tagged :
    ValueTypeDefinition.ofJson? (.object (("nodeType", .string name) :: ms)) =
      ValueTypeDefinition.ofMembers? ms := by
  simp [ofJson?, ofMembers?]

end

lemma Variable.untagged (v : Variable) : "nodeType" ∉ v.toMembers.map Prod.fst := by
  simp [toMembers]

lemma StructDefinition.untagged (s : StructDefinition) :
    "nodeType" ∉ s.toMembers.map Prod.fst := by
  simp [toMembers, definitionMembers]

lemma EnumDefinition.untagged (e : EnumDefinition) : "nodeType" ∉ e.toMembers.map Prod.fst := by
  simp [toMembers, definitionMembers]

lemma ValueTypeDefinition.untagged (t : ValueTypeDefinition) :
    "nodeType" ∉ t.toMembers.map Prod.fst := by
  simp [toMembers, definitionMembers]

lemma Contract.untagged (c : Contract) : "nodeType" ∉ c.toMembers.map Prod.fst := by
  simp [toMembers]

lemma ContractNode.ofJsonWith?_toJson {node : ContractNode} (fits : node.Fits)
    {typeOf? : Json → Option String} (finds : ∀ name, typeOf? (.string name) = some name) :
    ofJsonWith? typeOf? node.toJson = some node := by
  cases node with
  | «variable» v =>
    simp [ofJsonWith?, toJson, nodeType, node?_object v.untagged, finds,
      Variable.ofMembers?_toMembers fits]
  | struct s =>
    simp [ofJsonWith?, toJson, nodeType, node?_object s.untagged, finds,
      StructDefinition.ofMembers?_toMembers fits]
  | enum e =>
    simp [ofJsonWith?, toJson, nodeType, node?_object e.untagged, finds,
      EnumDefinition.ofMembers?_toMembers fits]
  | valueType t =>
    simp [ofJsonWith?, toJson, nodeType, node?_object t.untagged, finds,
      ValueTypeDefinition.ofMembers?_toMembers fits]
  | other => simp [ofJsonWith?, toJson, nodeType, finds, Json.isIgnorable]

lemma Contract.ofJsonWith?_tagged {c : Contract} (fits : c.Fits) (name : String)
    {typeOf? : Json → Option String} (finds : ∀ name, typeOf? (.string name) = some name) :
    ofJsonWith? typeOf? (.object (("nodeType", .string name) :: c.toMembers)) = some c := by
  have id := Json.asSigned64?_integer fits.id
  have lineage : Json.asList? Json.asSigned64? (.array (c.lineage.map .integer)) =
      some c.lineage :=
    Json.asList?_map fun base listed => Json.asSigned64?_integer (fits.lineage base listed)
  have nodes : Json.asList? (ContractNode.ofJsonWith? typeOf?)
      (.array (c.nodes.map ContractNode.toJson)) = some c.nodes :=
    Json.asList?_map fun node inside =>
      ContractNode.ofJsonWith?_toJson (fits.nodes node inside) finds
  simp [ofJsonWith?, toMembers, id, lineage, nodes]

/-! ## Plain documents -/

@[simp] lemma TypeDescription.isPlain_toJson (d : TypeDescription) : d.toJson.isPlain = true := by
  simp [toJson]

lemma TypeName.isPlain_toJson {t : TypeName} (fits : t.Fits) : t.toJson.isPlain = true := by
  induction t with
  | elementary id name d => simp [toJson, nodeType, Json.isPlain_id fits]
  | declared id declaration name d =>
    simp [toJson, nodeType, Json.isPlain_id fits.1, Json.isPlain_id fits.2]
  | mapping id key value d ihKey ihValue =>
    simp [toJson, nodeType, Json.isPlain_id fits.1, ihKey fits.2.1, ihValue fits.2.2]
  | array id element d ih => simp [toJson, nodeType, Json.isPlain_id fits.1, ih fits.2]
  | function id d => simp [toJson, nodeType, Json.isPlain_id fits]

@[simp] lemma Mutability.isPlain_toJson (m : Mutability) : m.toJson.isPlain = true := rfl

@[simp] lemma Documentation.isPlain_toJson (d : Documentation) : d.toJson.isPlain = true := by
  cases d <;> simp [toJson]

lemma Variable.isPlain_toMembers {v : Variable} (fits : v.Fits) :
    (Json.object v.toMembers).isPlain = true := by
  simp [toMembers, Json.isPlain_id fits.id, TypeName.isPlain_toJson fits.type]

lemma StructDefinition.isPlain_toMembers {s : StructDefinition} (fits : s.Fits) :
    (Json.object s.toMembers).isPlain = true := by
  have members (v) (member : v ∈ s.members) : v.toJson.isPlain = true :=
    Variable.isPlain_toMembers (fits.members v member)
  simpa [toMembers, definitionMembers, Json.isPlain_id fits.id] using members

lemma EnumDefinition.isPlain_toMembers {e : EnumDefinition} (fits : e.Fits) :
    (Json.object e.toMembers).isPlain = true := by
  simp [toMembers, definitionMembers, Json.isPlain_id fits.id]

lemma ValueTypeDefinition.isPlain_toMembers {t : ValueTypeDefinition} (fits : t.Fits) :
    (Json.object t.toMembers).isPlain = true := by
  simp [toMembers, definitionMembers, Json.isPlain_id fits.id,
    TypeName.isPlain_toJson fits.underlying]

lemma Json.isPlain_tagged {name : String} {ms : Members} (plain : (object ms).isPlain = true) :
    (object (nodeType name :: ms)).isPlain = true := by
  simpa [nodeType] using plain

lemma ContractNode.isPlain_toJson {node : ContractNode} (fits : node.Fits) :
    node.toJson.isPlain = true := by
  cases node with
  | «variable» v => exact Json.isPlain_tagged (Variable.isPlain_toMembers fits)
  | struct s => exact Json.isPlain_tagged (StructDefinition.isPlain_toMembers fits)
  | enum e => exact Json.isPlain_tagged (EnumDefinition.isPlain_toMembers fits)
  | valueType t => exact Json.isPlain_tagged (ValueTypeDefinition.isPlain_toMembers fits)
  | other => exact Json.isPlain_tagged rfl

lemma Contract.isPlain_toMembers {c : Contract} (fits : c.Fits) :
    (Json.object c.toMembers).isPlain = true := by
  have lineage (id) (listed : id ∈ c.lineage) : (Json.integer id).isPlain = true :=
    Json.isPlain_id (fits.lineage id listed)
  have nodes (node) (inside : node ∈ c.nodes) : node.toJson.isPlain = true :=
    ContractNode.isPlain_toJson (fits.nodes node inside)
  simpa [toMembers, Json.isPlain_id fits.id] using And.intro lineage nodes

lemma SourceNode.isPlain_toJson {node : SourceNode} (fits : node.Fits) :
    node.toJson.isPlain = true := by
  cases node with
  | contract c => exact Json.isPlain_tagged (Contract.isPlain_toMembers fits)
  | struct s => exact Json.isPlain_tagged (StructDefinition.isPlain_toMembers fits)
  | enum e => exact Json.isPlain_tagged (EnumDefinition.isPlain_toMembers fits)
  | valueType t => exact Json.isPlain_tagged (ValueTypeDefinition.isPlain_toMembers fits)
  | other => exact Json.isPlain_tagged rfl

lemma Source.isPlain_toJson {s : Source} (fits : s.Fits) : s.toJson.isPlain = true := by
  have index : (Json.natural s.index).isPlain = true :=
    Json.isPlain_natural (Nat.lt_trans fits.index (by decide))
  have nodes (node) (inside : node ∈ s.nodes) : node.toJson.isPlain = true :=
    SourceNode.isPlain_toJson (fits.nodes node inside)
  simpa [toJson, index, Json.isPlain_id fits.unit] using nodes

lemma Compilation.isPlain_toJson {c : Compilation} (fits : c.Fits) : c.toJson.isPlain = true := by
  simpa [toJson] using fun s compiled => Source.isPlain_toJson (fits s compiled)

/-! ## Sources -/

lemma SourceNode.ofJson?_toJson {node : SourceNode} (fits : node.Fits) :
    ofJson? node.toJson = some node := by
  have whole := Json.whole?_of_isPlain (SourceNode.isPlain_toJson fits)
  rw [ofJson?, whole]
  cases node with
  | contract c =>
    have contract : Contract.innerOfJson?
        (.object (("nodeType", .string "ContractDefinition") :: c.toMembers)) = some c :=
      Contract.ofJsonWith?_tagged fits _ fun _ => rfl
    simp [toJson, nodeType, node?_object c.untagged, contract]
  | struct s =>
    simp [toJson, nodeType, node?_object s.untagged, StructDefinition.ofMembers?_toMembers fits]
  | enum e =>
    simp [toJson, nodeType, node?_object e.untagged, EnumDefinition.ofMembers?_toMembers fits]
  | valueType t =>
    simp [toJson, nodeType, node?_object t.untagged, ValueTypeDefinition.ofMembers?_toMembers fits]
  | other => simp [toJson, nodeType, Json.isIgnorable]

lemma Source.ofJson?_toJson {s : Source} (fits : s.Fits) : ofJson? s.toJson = some s := by
  have index := Json.asNatural?_natural fits.index
  have unit := Json.asSigned64?_integer fits.unit
  have nodes : Json.asList? SourceNode.ofJson? (.array (s.nodes.map SourceNode.toJson)) =
      some s.nodes :=
    Json.asList?_map fun node inside => SourceNode.ofJson?_toJson (fits.nodes node inside)
  simp [ofJson?, toJson, index, unit, nodes]

lemma Compilation.ofJson?_toJson {c : Compilation} (fits : c.Fits) : ofJson? c.toJson = some c := by
  have sources : Json.asTable? Source.ofJson? (.ofTable Source.toJson c.sources) =
      some c.sources :=
    Json.asTable?_ofTable fun s compiled => Source.ofJson?_toJson (fits s compiled)
  simp [ofJson?, toJson, sources]

/--
A program is read as it was from the document that it is written as, and from every
text of that document that is not nested too deeply for a text.
-/
theorem written_compilation_reads_back {c : Compilation} (fits : c.Fits) :
    Compilation.ofJson? c.toJson = some c ∧
      ∀ style : Json.Style, style.Blank → c.toJson.depth ≤ Json.maxDepth →
        (Json.parse (Json.render style c.toJson)).bind Compilation.ofJson? = some c := by
  have document := Compilation.ofJson?_toJson fits
  refine ⟨document, fun style blank shallow => ?_⟩
  rw [Json.parse_render blank (Compilation.isPlain_toJson fits), Json.within_of_depth shallow,
    Option.bind_some, document]

/-- An annotation that maps addresses to arrays of structs. -/
def votesAnnotation : TypeName :=
  .mapping 5 (.elementary 6 "address" ⟨some "t_address", some "address"⟩)
    (.array 7 (.declared 8 3 none .empty) ⟨none, some "struct Ballot.Vote[]"⟩) .empty

def ballotContract : Contract where
  id := 2
  name := "Ballot"
  lineage := [2, -1]
  nodes :=
    [.struct ⟨3, "Vote", none, [⟨4, "weight", .elementary 9 "uint" .empty, .empty, false, none,
        false, none, ""⟩], "10:30:0"⟩,
      .enum ⟨10, "Phase", some "Ballot.Phase", [], ""⟩,
      .other,
      .variable ⟨11, "votes", votesAnnotation, .empty, false, some .mutable, true,
        some (.bare "@custom:renamed-from tally"), "50:20:0"⟩,
      .variable ⟨12, "counted", .function 13 .empty, .empty, true, none, true,
        some (.node "Called once."), ""⟩]
  src := "0:100:0"

def ballotCompilation : Compilation where
  sources := ⟨[("Ballot.sol", ⟨0, 1, "Ballot.sol", [.contract ballotContract,
    .valueType ⟨14, "Weight", none, .elementary 15 "uint8" .empty, ""⟩, .other]⟩)], by decide⟩

lemma votesAnnotation_fits : votesAnnotation.Fits :=
  ⟨by decide, (by decide : NodeId.Fits 6), by decide, (by decide : NodeId.Fits 8), by decide⟩

lemma ballotContract_fits : ballotContract.Fits := by
  refine ⟨by decide, ?_, ?_⟩
  · simp only [ballotContract, List.forall_mem_cons]
    exact ⟨by decide, by decide, List.forall_mem_nil _⟩
  · have vote : StructDefinition.Fits ⟨3, "Vote", none, [⟨4, "weight", .elementary 9 "uint" .empty,
        .empty, false, none, false, none, ""⟩], "10:30:0"⟩ :=
      ⟨by decide, List.forall_mem_singleton.2 ⟨by decide, (by decide : NodeId.Fits 9)⟩⟩
    simp only [ballotContract, List.forall_mem_cons]
    exact ⟨vote, ⟨by decide⟩, trivial, ⟨by decide, votesAnnotation_fits⟩,
      ⟨by decide, (by decide : NodeId.Fits 13)⟩, List.forall_mem_nil _⟩

lemma ballotCompilation_fits : ballotCompilation.Fits := by
  simp only [Compilation.Fits, ballotCompilation, Table.values, List.map_cons, List.map_nil,
    List.forall_mem_cons]
  refine ⟨⟨by decide, by decide, ?_⟩, List.forall_mem_nil _⟩
  simp only [List.forall_mem_cons]
  exact ⟨ballotContract_fits, ⟨by decide, (by decide : NodeId.Fits 15)⟩, trivial,
    List.forall_mem_nil _⟩

/-- Written in either style and read back. -/
theorem ballot_compilation_reads_back :
    (Json.parse (Json.render Json.compact ballotCompilation.toJson)).bind Compilation.ofJson? =
        some ballotCompilation ∧
      (Json.parse (Json.render Json.pretty ballotCompilation.toJson)).bind Compilation.ofJson? =
        some ballotCompilation := by
  have shallow : ballotCompilation.toJson.depth ≤ Json.maxDepth := by decide
  have reads := (written_compilation_reads_back ballotCompilation_fits).2
  exact ⟨reads _ Json.compact_blank shallow, reads _ Json.pretty_blank shallow⟩

end UpgradeSafety
