import UpgradeSafety.Compilation.Basic
import UpgradeSafety.Json.Document

/-!
# Compiler output as JSON documents

Nodes are told apart by their `nodeType`. Among the nodes of a file or of a
contract one of another type does not matter and the rest of it is not looked
at; a type annotation of another type is an error. All that a node of a file
holds has to be readable, even where it is ignored, since the type of the node
may stand behind it. A node inside another may give the position of its type
instead of the name. Everything is written back in full, as objects, with `null`
for what is absent.
-/

namespace UpgradeSafety

open Json (Members required optional defaulted orNull asString? asSigned64? asBool? asList?)

/-- A member of an object with what kind of node the object is. -/
def nodeType (name : String) : String × Json := ("nodeType", .string name)

/-- What tells the type of a node, and the node. -/
def node? (j : Json) : Option (Json × Json) := j.tagged? "nodeType"

namespace TypeDescription

def toJson (d : TypeDescription) : Json :=
  .object [("typeIdentifier", orNull .string d.identifier), ("typeString", orNull .string d.text)]

/-- Reads a description; one that is an array leaves nothing out. -/
def ofJson? : Json → Option TypeDescription
  | .object ms =>
    return ⟨← optional asString? "typeIdentifier" ms, ← optional asString? "typeString" ms⟩
  | .array [identifier, text] =>
    return ⟨← Json.asNullable? asString? identifier, ← Json.asNullable? asString? text⟩
  | _ => none

/-- The description among the members of a node. -/
def ofMembers? : Members → Option TypeDescription := defaulted empty ofJson? "typeDescriptions"

end TypeDescription

namespace TypeName

def toJson : TypeName → Json
  | .elementary id name d =>
    .object [nodeType "ElementaryTypeName", ("id", .integer id), ("name", .string name),
      ("typeDescriptions", d.toJson)]
  | .declared id declaration name d =>
    .object [nodeType "UserDefinedTypeName", ("id", .integer id),
      ("referencedDeclaration", .integer declaration), ("name", orNull .string name),
      ("typeDescriptions", d.toJson)]
  | .mapping id key value d =>
    .object [nodeType "Mapping", ("id", .integer id), ("keyType", key.toJson),
      ("valueType", value.toJson), ("typeDescriptions", d.toJson)]
  | .array id element d =>
    .object [nodeType "ArrayTypeName", ("id", .integer id), ("baseType", element.toJson),
      ("typeDescriptions", d.toJson)]
  | .function id d =>
    .object [nodeType "FunctionTypeName", ("id", .integer id), ("typeDescriptions", d.toJson)]

/-- An annotation that names a declaration, whatever its node type. -/
def declaredOfMembers? (ms : Members) : Option TypeName :=
  return .declared (← required asSigned64? "id" ms)
    (← required asSigned64? "referencedDeclaration" ms) (← optional asString? "name" ms)
    (← TypeDescription.ofMembers? ms)

/-- The types of annotations in their order. -/
def nodeTypes : List String :=
  ["ElementaryTypeName", "UserDefinedTypeName", "Mapping", "ArrayTypeName", "FunctionTypeName"]

/-- Reads an annotation with fewer than `depth` records inside one another. -/
def ofJsonWithin? : Nat → Json → Option TypeName
  | 0, _ => none
  | depth + 1, j => do
    let (type, record) ← node? j
    match ← type.asKeywordOrPosition? nodeTypes with
    | "ElementaryTypeName" =>
      let ms ← record.asRecord? ["id", "name", "typeDescriptions"]
      return .elementary (← required asSigned64? "id" ms) (← required asString? "name" ms)
        (← TypeDescription.ofMembers? ms)
    | "UserDefinedTypeName" =>
      declaredOfMembers?
        (← record.asRecord? ["id", "referencedDeclaration", "name", "typeDescriptions"])
    | "Mapping" =>
      let ms ← record.asRecord? ["id", "keyType", "valueType", "typeDescriptions"]
      return .mapping (← required asSigned64? "id" ms)
        (← required (ofJsonWithin? depth) "keyType" ms)
        (← required (ofJsonWithin? depth) "valueType" ms) (← TypeDescription.ofMembers? ms)
    | "ArrayTypeName" =>
      let ms ← record.asRecord? ["id", "baseType", "typeDescriptions"]
      return .array (← required asSigned64? "id" ms)
        (← required (ofJsonWithin? depth) "baseType" ms) (← TypeDescription.ofMembers? ms)
    | "FunctionTypeName" =>
      let ms ← record.asRecord? ["id", "typeDescriptions"]
      return .function (← required asSigned64? "id" ms) (← TypeDescription.ofMembers? ms)
    | _ => none

/-- Reads an annotation; the depth of a value bounds the records inside it. -/
def ofJson? (j : Json) : Option TypeName := ofJsonWithin? j.depth j

end TypeName

namespace Mutability

def name : Mutability → String
  | .mutable => "mutable"
  | .immutable => "immutable"
  | .constant => "constant"

def toJson (m : Mutability) : Json := .string m.name

def ofJson? (j : Json) : Option Mutability := do
  match ← j.asKeyword? with
  | "mutable" => some .mutable
  | "immutable" => some .immutable
  | "constant" => some .constant
  | _ => none

end Mutability

namespace Documentation

def toJson : Documentation → Json
  | .node text => .object [("text", .string text)]
  | .bare text => .string text

def ofJson? : Json → Option Documentation
  | .string text => some (.bare text)
  | .object ms => (required asString? "text" ms).map .node
  | _ => none

end Documentation

namespace Variable

def toMembers (v : Variable) : Members :=
  [("id", .integer v.id), ("name", .string v.name), ("typeName", v.type.toJson),
    ("typeDescriptions", v.description.toJson), ("constant", .bool v.constant),
    ("mutability", orNull Mutability.toJson v.mutability),
    ("stateVariable", .bool v.stateVariable),
    ("documentation", orNull Documentation.toJson v.documentation), ("src", .string v.src)]

def ofMembers? (ms : Members) : Option Variable :=
  return {
    id := ← required asSigned64? "id" ms
    name := ← required asString? "name" ms
    type := ← required TypeName.ofJson? "typeName" ms
    description := ← TypeDescription.ofMembers? ms
    constant := ← defaulted false asBool? "constant" ms
    mutability := ← optional Mutability.ofJson? "mutability" ms
    stateVariable := ← defaulted false asBool? "stateVariable" ms
    documentation := ← optional Documentation.ofJson? "documentation" ms
    src := ← defaulted "" asString? "src" ms }

def toJson (v : Variable) : Json := .object v.toMembers

/-- The fields of a variable in their order. -/
def fields : List String :=
  ["id", "name", "typeName", "typeDescriptions", "constant", "mutability", "stateVariable",
    "documentation", "src"]

def ofJson? (j : Json) : Option Variable := (j.asRecord? fields).bind ofMembers?

end Variable

/-- The members that the definitions of types have in common, before and after their own. -/
def definitionMembers (id : NodeId) (name : String) (canonicalName : Option String) (own : Members)
    (src : String) : Members :=
  [("id", .integer id), ("name", .string name), ("canonicalName", orNull .string canonicalName)] ++
    own ++ [("src", .string src)]

/-- The fields of the definition of a type in their order, with its own one among them. -/
def definitionFields (own : String) : List String := ["id", "name", "canonicalName", own, "src"]

namespace StructDefinition

def toMembers (s : StructDefinition) : Members :=
  definitionMembers s.id s.name s.canonicalName
    [("members", .array (s.members.map Variable.toJson))] s.src

def ofMembers? (ms : Members) : Option StructDefinition :=
  return {
    id := ← required asSigned64? "id" ms
    name := ← required asString? "name" ms
    canonicalName := ← optional asString? "canonicalName" ms
    members := ← defaulted [] (asList? Variable.ofJson?) "members" ms
    src := ← defaulted "" asString? "src" ms }

def ofJson? (j : Json) : Option StructDefinition :=
  (j.asRecord? (definitionFields "members")).bind ofMembers?

end StructDefinition

namespace EnumDefinition

def toMembers (e : EnumDefinition) : Members :=
  definitionMembers e.id e.name e.canonicalName
    [("members", .array (e.members.map fun name => .object [("name", .string name)]))] e.src

/-- The name of a member of an enum. -/
def memberOfJson? (j : Json) : Option String :=
  (j.asRecord? ["name"]).bind (required asString? "name")

def ofMembers? (ms : Members) : Option EnumDefinition :=
  return {
    id := ← required asSigned64? "id" ms
    name := ← required asString? "name" ms
    canonicalName := ← optional asString? "canonicalName" ms
    members := ← defaulted [] (asList? memberOfJson?) "members" ms
    src := ← defaulted "" asString? "src" ms }

def ofJson? (j : Json) : Option EnumDefinition :=
  (j.asRecord? (definitionFields "members")).bind ofMembers?

end EnumDefinition

namespace ValueTypeDefinition

def toMembers (t : ValueTypeDefinition) : Members :=
  definitionMembers t.id t.name t.canonicalName [("underlyingType", t.underlying.toJson)] t.src

def ofMembers? (ms : Members) : Option ValueTypeDefinition :=
  return {
    id := ← required asSigned64? "id" ms
    name := ← required asString? "name" ms
    canonicalName := ← optional asString? "canonicalName" ms
    underlying := ← required TypeName.ofJson? "underlyingType" ms
    src := ← defaulted "" asString? "src" ms }

def ofJson? (j : Json) : Option ValueTypeDefinition :=
  (j.asRecord? (definitionFields "underlyingType")).bind ofMembers?

end ValueTypeDefinition

namespace ContractNode

def toJson : ContractNode → Json
  | .variable v => .object (nodeType "VariableDeclaration" :: v.toMembers)
  | .struct s => .object (nodeType "StructDefinition" :: s.toMembers)
  | .enum e => .object (nodeType "EnumDefinition" :: e.toMembers)
  | .valueType t => .object (nodeType "UserDefinedValueTypeDefinition" :: t.toMembers)
  | .other => .object [nodeType "Other"]

/-- The types of nodes that matter, in their order. -/
def nodeTypes : List String :=
  ["VariableDeclaration", "StructDefinition", "EnumDefinition", "UserDefinedValueTypeDefinition"]

/-- Reads a node whose type is read by `typeOf?`. -/
def ofJsonWith? (typeOf? : Json → Option String) (j : Json) : Option ContractNode := do
  let (type, record) ← node? j
  match ← typeOf? type with
  | "VariableDeclaration" => (Variable.ofJson? record).map .variable
  | "StructDefinition" => (StructDefinition.ofJson? record).map .struct
  | "EnumDefinition" => (EnumDefinition.ofJson? record).map .enum
  | "UserDefinedValueTypeDefinition" => (ValueTypeDefinition.ofJson? record).map .valueType
  | _ => if record.isIgnorable then some .other else none

end ContractNode

namespace Contract

def toMembers (c : Contract) : Members :=
  [("id", .integer c.id), ("name", .string c.name),
    ("linearizedBaseContracts", .array (c.lineage.map .integer)),
    ("nodes", .array (c.nodes.map ContractNode.toJson)), ("src", .string c.src)]

/-- Reads a contract, the types of whose nodes are read by `typeOf?`. -/
def ofJsonWith? (typeOf? : Json → Option String) (j : Json) : Option Contract := do
  let ms ← j.asRecord? ["id", "name", "linearizedBaseContracts", "nodes", "src"]
  return {
    id := ← required asSigned64? "id" ms
    name := ← required asString? "name" ms
    lineage := ← defaulted [] (asList? asSigned64?) "linearizedBaseContracts" ms
    nodes := ← defaulted [] (asList? (ContractNode.ofJsonWith? typeOf?)) "nodes" ms
    src := ← defaulted "" asString? "src" ms }

/-- Reads a contract inside a file. -/
def innerOfJson? : Json → Option Contract :=
  ofJsonWith? (Json.asKeywordOrPosition? ContractNode.nodeTypes)

/-- Reads a contract by itself, whatever its node type; its nodes are inside no other one. -/
def ofJson? : Json → Option Contract := ofJsonWith? asString?

end Contract

namespace SourceNode

def toJson : SourceNode → Json
  | .contract c => .object (nodeType "ContractDefinition" :: c.toMembers)
  | .struct s => .object (nodeType "StructDefinition" :: s.toMembers)
  | .enum e => .object (nodeType "EnumDefinition" :: e.toMembers)
  | .valueType t => .object (nodeType "UserDefinedValueTypeDefinition" :: t.toMembers)
  | .other => .object [nodeType "Other"]

def ofJson? (j : Json) : Option SourceNode := do
  let (type, record) ← node? (← j.whole?)
  match ← type.asString? with
  | "ContractDefinition" => (Contract.innerOfJson? record).map .contract
  | "StructDefinition" => (StructDefinition.ofJson? record).map .struct
  | "EnumDefinition" => (EnumDefinition.ofJson? record).map .enum
  | "UserDefinedValueTypeDefinition" => (ValueTypeDefinition.ofJson? record).map .valueType
  | _ => if record.isIgnorable then some .other else none

end SourceNode

namespace Source

def toJson (s : Source) : Json :=
  .object [("id", .natural s.index),
    ("ast", .object [("id", .integer s.unit), ("absolutePath", .string s.path),
      ("nodes", .array (s.nodes.map SourceNode.toJson))])]

def ofJson? (j : Json) : Option Source := do
  let ms ← j.asRecord? ["id", "ast"]
  let index ← required (Json.asNatural? Numeral.bound32) "id" ms
  let tree ← required (Json.asRecord? ["id", "absolutePath", "nodes"]) "ast" ms
  return {
    index
    unit := ← required asSigned64? "id" tree
    path := ← required asString? "absolutePath" tree
    nodes := ← defaulted [] (asList? SourceNode.ofJson?) "nodes" tree }

end Source

namespace Compilation

def toJson (c : Compilation) : Json := .object [("sources", .ofTable Source.toJson c.sources)]

def ofJson? (j : Json) : Option Compilation := do
  let ms ← j.asRecord? ["sources"]
  return ⟨← defaulted Table.empty (Json.asTable? Source.ofJson?) "sources" ms⟩

end Compilation

end UpgradeSafety
