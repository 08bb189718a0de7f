import UpgradeSafety.Table
import UpgradeSafety.TypeId.ArrayLength

/-!
# Storage layouts

A layout is the list of a contract's storage items together with a registry of
the types that they refer to by canonical id. Two layouts are the same when they
differ at most in where in the sources their items were declared.
-/

namespace UpgradeSafety

/-- A declared storage variable and its place. -/
structure StorageItem where
  /-- The contract that declares the variable. -/
  contract : String
  label : String
  type : TypeId
  slot : Nat
  offset : Nat
  /-- Where the variable is declared. -/
  src : Option String
  /-- The label that the variable had before. -/
  renamedFrom : Option String
  deriving DecidableEq, Repr

structure StructMember where
  label : String
  type : TypeId
  deriving DecidableEq, Repr

/-- The structure of a type. The members of a struct or an enum may be unknown. -/
inductive TypeKind where
  | value
  | contract
  | struct (members : Option (List StructMember))
  | enum (members : Option (List String))
  | mapping (key value : TypeId)
  | array (element : TypeId) (length : ArrayLength)
  deriving DecidableEq, Repr

structure TypeItem where
  /-- The name of the type as the compiler writes it. -/
  label : String
  numberOfBytes : Nat
  kind : TypeKind
  deriving DecidableEq, Repr

structure Layout where
  storage : List StorageItem
  types : Table TypeItem
  deriving DecidableEq

namespace StorageItem

def withoutSource (item : StorageItem) : StorageItem := { item with src := none }

end StorageItem

namespace TypeItem

def structMembers? (item : TypeItem) : Option (List StructMember) :=
  match item.kind with
  | .struct members => members
  | _ => none

def enumMembers? (item : TypeItem) : Option (List String) :=
  match item.kind with
  | .enum members => members
  | _ => none

/-- Forgets the members of a struct or an enum. -/
def forgetMembers (item : TypeItem) : TypeItem :=
  match item.kind with
  | .struct _ => { item with kind := .struct none }
  | .enum _ => { item with kind := .enum none }
  | _ => item

end TypeItem

namespace Layout

def empty : Layout := ⟨[], Table.empty⟩

/-- The first item with a label. -/
def item? (l : Layout) (label : String) : Option StorageItem :=
  l.storage.find? fun item => item.label = label

def type? (l : Layout) (id : TypeId) : Option TypeItem := l.types.find? id

/-- Forgets the members of a type, if the layout has it. -/
def forgetMembers (l : Layout) (id : TypeId) : Layout :=
  { l with types := l.types.adjust id TypeItem.forgetMembers }

def withoutSources (l : Layout) : Layout :=
  { l with storage := l.storage.map StorageItem.withoutSource }

/-- Whether two layouts differ at most in the sources of their items. -/
def same (a b : Layout) : Bool := a.withoutSources = b.withoutSources

end Layout

end UpgradeSafety
