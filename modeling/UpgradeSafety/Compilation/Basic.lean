import UpgradeSafety.Table
import UpgradeSafety.Text.Split
import UpgradeSafety.TypeId.Canonical

/-!
# Compiled programs

The part of a compiler's syntax tree that decides where a contract keeps its
variables: contracts with their variables, the types that they declare, and the
annotations that name types. Nodes refer to one another by id. Every other node
is kept as one that does not matter.
-/

namespace UpgradeSafety

/-- How the compiler describes the type of an annotation. -/
structure TypeDescription where
  identifier : Option String
  text : Option String
  deriving DecidableEq, Repr

def TypeDescription.empty : TypeDescription := ⟨none, none⟩

/-- A type annotation. -/
inductive TypeName where
  | elementary (id : NodeId) (name : String) (description : TypeDescription)
  | declared (id declaration : NodeId) (name : Option String) (description : TypeDescription)
  | mapping (id : NodeId) (key value : TypeName) (description : TypeDescription)
  | array (id : NodeId) (element : TypeName) (description : TypeDescription)
  | function (id : NodeId) (description : TypeDescription)
  deriving DecidableEq, Repr

namespace TypeName

def id : TypeName → NodeId
  | .elementary id _ _ => id
  | .declared id _ _ _ => id
  | .mapping id _ _ _ => id
  | .array id _ _ => id
  | .function id _ => id

def description : TypeName → TypeDescription
  | .elementary _ _ d => d
  | .declared _ _ _ d => d
  | .mapping _ _ _ d => d
  | .array _ _ d => d
  | .function _ d => d

/-- The declaration that an annotation names, if it names one. -/
def declaration? : TypeName → Option NodeId
  | .declared _ declaration _ _ => some declaration
  | _ => none

/-- The number of annotations in an annotation. -/
def count : TypeName → Nat
  | .mapping _ key value _ => key.count + value.count + 1
  | .array _ element _ => element.count + 1
  | _ => 1

end TypeName

inductive Mutability where
  | mutable
  | immutable
  | constant
  deriving DecidableEq, Repr

/-- The documentation of a declaration, as a node with a text or as the bare text. -/
inductive Documentation where
  | node (text : String)
  | bare (text : String)
  deriving DecidableEq, Repr

def Documentation.text : Documentation → String
  | .node text => text
  | .bare text => text

/-- A variable of a contract, or a member of a struct. -/
structure Variable where
  id : NodeId
  name : String
  type : TypeName
  description : TypeDescription
  constant : Bool
  mutability : Option Mutability
  stateVariable : Bool
  documentation : Option Documentation
  src : String
  deriving DecidableEq, Repr

namespace Variable

/-- Whether the variable is kept in storage and not in the code. -/
def isStored (v : Variable) : Bool :=
  !v.constant && v.mutability ≠ some .immutable && v.mutability ≠ some .constant

/-- The tags that announce an earlier label. -/
def earlierLabelTags : List (List Char) :=
  ["@custom:oz-renamed-from".toList, "@custom:renamed-from".toList]

/-- The word behind the first tag that has one in a line of documentation. -/
def earlierLabelInLine? (line : List Char) : Option String :=
  earlierLabelTags.findSome? fun tag => (Text.afterFirst? tag line).bind Text.firstWord?

/-- The label that the variable had before, as its documentation declares it. -/
def earlierLabel? (v : Variable) : Option String :=
  v.documentation.bind fun d => (Text.splitOn '\n' d.text.toList).findSome? earlierLabelInLine?

end Variable

structure StructDefinition where
  id : NodeId
  name : String
  canonicalName : Option String
  members : List Variable
  src : String
  deriving DecidableEq, Repr

structure EnumDefinition where
  id : NodeId
  name : String
  canonicalName : Option String
  members : List String
  src : String
  deriving DecidableEq, Repr

/-- A type with a name of its own and the values of another. -/
structure ValueTypeDefinition where
  id : NodeId
  name : String
  canonicalName : Option String
  underlying : TypeName
  src : String
  deriving DecidableEq, Repr

/-- What stands inside a contract. -/
inductive ContractNode where
  | variable (v : Variable)
  | struct (s : StructDefinition)
  | enum (e : EnumDefinition)
  | valueType (t : ValueTypeDefinition)
  | other
  deriving DecidableEq, Repr

/-- A contract, an interface or a library. -/
structure Contract where
  id : NodeId
  name : String
  /-- The contract itself and then its bases, the most basic one last. -/
  lineage : List NodeId
  nodes : List ContractNode
  src : String
  deriving DecidableEq, Repr

namespace Contract

def allVariables (c : Contract) : List Variable :=
  c.nodes.filterMap fun node =>
    match node with
    | .variable v => some v
    | _ => none

/-- The variables that the contract itself keeps in storage. -/
def storedVariables (c : Contract) : List Variable := c.allVariables.filter Variable.isStored

end Contract

/-- What stands at the top level of a source file. -/
inductive SourceNode where
  | contract (c : Contract)
  | struct (s : StructDefinition)
  | enum (e : EnumDefinition)
  | valueType (t : ValueTypeDefinition)
  | other
  deriving DecidableEq, Repr

/-- A compiled source file with the number that locations call it by. -/
structure Source where
  index : Nat
  unit : NodeId
  path : String
  nodes : List SourceNode
  deriving DecidableEq, Repr

/-- A compiled program: its source files by name. -/
structure Compilation where
  sources : Table Source
  deriving DecidableEq

end UpgradeSafety
