import UpgradeSafety.Compilation.Basic
import UpgradeSafety.Numeral
import UpgradeSafety.Text.Quoted

/-!
# Following references

The declarations of a program in the order in which they are met, and what the
ids and names in it refer to. Where two declarations claim one id, the last one
has it.
-/

namespace UpgradeSafety

inductive DeclarationKind where
  | contract
  | struct
  | enum
  | valueType
  deriving DecidableEq, Repr

/-- The type of the nodes that declare something of the kind. -/
def DeclarationKind.name : DeclarationKind → String
  | .contract => "ContractDefinition"
  | .struct => "StructDefinition"
  | .enum => "EnumDefinition"
  | .valueType => "UserDefinedValueTypeDefinition"

/-- Why a program could not be followed or laid out. -/
inductive ResolutionError where
  | notFound (id : NodeId)
  | wrongNodeType (id : NodeId) (expected : List DeclarationKind) (found : DeclarationKind)
  | contractNotFound (name : String)
  | ambiguousContract (name : String) (count : Nat)
  | missingTypeIdentifier (node : NodeId)
  | unsupportedType (id : TypeId)
  /-- Two declarations have one canonical id. -/
  | ambiguousTypeId (id : TypeId) (first second : NodeId)
  | oversizedType (id : TypeId)
  | selfContainingType (id : TypeId)
  /-- A named value type stands for itself. -/
  | endlessType (node : NodeId)
  deriving DecidableEq, Repr

namespace ResolutionError

def message : ResolutionError → String
  | notFound id => s!"No declaration with node id {id} exists in the compiled program"
  | wrongNodeType id expected found =>
    s!"Node {id} is a {found.name} but a " ++
      String.intercalate " or " (expected.map DeclarationKind.name) ++ " was expected"
  | contractNotFound name =>
    s!"No contract named {Text.quoted name} exists in the compiled program"
  | ambiguousContract name count =>
    s!"Found {count} contracts named {Text.quoted name} where exactly one was expected"
  | missingTypeIdentifier node => s!"The type annotation at node {node} has no type identifier"
  | unsupportedType id => s!"The type {Text.quoted id} cannot be placed in storage"
  | ambiguousTypeId id first second =>
    s!"Declarations {first} and {second} both stabilize to the type id {Text.quoted id}"
  | oversizedType id => s!"The type {Text.quoted id} is too large to be placed in storage"
  | selfContainingType id =>
    s!"The type {Text.quoted id} contains itself, so it has no finite size"
  | endlessType node => s!"The type annotation at node {node} never comes to an end"

end ResolutionError

/-- What an annotation can refer to. -/
inductive Declaration where
  | contract (c : Contract)
  | struct (s : StructDefinition)
  | enum (e : EnumDefinition)
  | valueType (t : ValueTypeDefinition)
  deriving DecidableEq, Repr

namespace Declaration

def id : Declaration → NodeId
  | .contract c => c.id
  | .struct s => s.id
  | .enum e => e.id
  | .valueType t => t.id

def kind : Declaration → DeclarationKind
  | .contract _ => .contract
  | .struct _ => .struct
  | .enum _ => .enum
  | .valueType _ => .valueType

def name : Declaration → String
  | .contract c => c.name
  | .struct s => s.name
  | .enum e => e.name
  | .valueType t => t.name

/-- The name with the contract around the declaration, if the compiler gave one. -/
def canonicalName? : Declaration → Option String
  | .contract _ => none
  | .struct s => s.canonicalName
  | .enum e => e.canonicalName
  | .valueType t => t.canonicalName

/-- The annotations of a declaration and the types inside it. -/
def annotations : Declaration → List TypeName
  | .contract c => c.allVariables.map Variable.type
  | .struct s => s.members.map Variable.type
  | .enum _ => []
  | .valueType t => [t.underlying]

end Declaration

/-- The declaration that a node inside a contract makes. -/
def ContractNode.declaration? : ContractNode → Option Declaration
  | .struct s => some (.struct s)
  | .enum e => some (.enum e)
  | .valueType t => some (.valueType t)
  | .variable _ => none
  | .other => none

/-- The declarations that a top-level node makes, those inside a contract before it. -/
def SourceNode.declarations : SourceNode → List Declaration
  | .contract c => c.nodes.filterMap ContractNode.declaration? ++ [.contract c]
  | .struct s => [.struct s]
  | .enum e => [.enum e]
  | .valueType t => [.valueType t]
  | .other => []

/-- The declarations of a program in order. -/
structure Declarations where
  all : List Declaration
  deriving DecidableEq

namespace Declarations

/-- The declarations of all source files, in the order of their names. -/
def ofCompilation (c : Compilation) : Declarations :=
  ⟨c.sources.values.flatMap fun source => source.nodes.flatMap SourceNode.declarations⟩

def find? (ds : Declarations) (id : NodeId) : Option Declaration :=
  (ds.all.filter fun d => d.id = id).getLast?

/-- The number of ids that are declared. -/
def size (ds : Declarations) : Nat := (ds.all.map Declaration.id).eraseDups.length

def resolve (ds : Declarations) (id : NodeId) : Except ResolutionError Declaration :=
  match ds.find? id with
  | some d => .ok d
  | none => .error (.notFound id)

/-- Resolves an id to a declaration of one of the expected kinds. -/
def resolveAmong (ds : Declarations) (id : NodeId) (expected : List DeclarationKind) :
    Except ResolutionError Declaration := do
  let d ← ds.resolve id
  if d.kind ∈ expected then return d else throw (.wrongNodeType id expected d.kind)

/-- How many declarations share a kind and a name. -/
def sharing (ds : Declarations) (kind : DeclarationKind) (name : String) : Nat :=
  ds.all.countP fun d => d.kind = kind && d.name = name

/--
The name that a declaration has in canonical ids where its declared name is
shared with another declaration of its kind.
-/
def distinctName? (ds : Declarations) (id : NodeId) : Option String :=
  (ds.find? id).bind fun d =>
    if 1 < ds.sharing d.kind d.name then d.canonicalName? else none

def contract (ds : Declarations) (id : NodeId) : Except ResolutionError Contract := do
  match ← ds.resolve id with
  | .contract c => return c
  | other => throw (.wrongNodeType id [.contract] other.kind)

/-- The only contract of a name. -/
def contractNamed (ds : Declarations) (name : String) : Except ResolutionError Contract :=
  match ds.all.filter fun d => d.kind = .contract && d.name = name with
  | [] => .error (.contractNotFound name)
  | [d] => ds.contract d.id
  | several => .error (.ambiguousContract name several.length)

/-- The contracts whose variables a contract has, the most basic one first. -/
def lineage (ds : Declarations) (c : Contract) : Except ResolutionError (List Contract) :=
  if c.lineage.isEmpty then .ok [c]
  else c.lineage.reverse.mapM fun id => if id = c.id then .ok c else ds.contract id

end Declarations

end UpgradeSafety
