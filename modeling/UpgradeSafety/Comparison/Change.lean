import UpgradeSafety.Layout.Basic

/-!
# Differences between layouts

What a comparison reports: an operation for every position where two sequences
of fields differ, and for a field whose type changed the reason why the new type
cannot take the place of the old one, which may lie further inside.
-/

namespace UpgradeSafety

/-- A named and typed place in a sequence that is matched by position. -/
class Field (F : Type) where
  label : F → String
  type : F → TypeId
  /-- The label that the field declares to have had before. -/
  renamedFrom : F → Option String
  location : F → Option String

instance : Field StorageItem where
  label := StorageItem.label
  type := StorageItem.type
  renamedFrom := StorageItem.renamedFrom
  location := StorageItem.src

instance : Field StructMember where
  label := StructMember.label
  type := StructMember.type
  renamedFrom _ := none
  location _ := none

/-- A difference at one position, where `C` describes a change of type. -/
inductive Operation (F C : Type) where
  | append (new : F)
  | delete (old : F)
  | rename (old new : F)
  /-- Both the label and the type changed. -/
  | replace (old new : F)
  | typeChange (old new : F) (change : C)
  deriving DecidableEq, Repr

namespace Operation

variable {F C : Type}

def old? : Operation F C → Option F
  | .append _ => none
  | .delete o => some o
  | .rename o _ => some o
  | .replace o _ => some o
  | .typeChange o _ _ => some o

def new? : Operation F C → Option F
  | .append n => some n
  | .delete _ => none
  | .rename _ n => some n
  | .replace _ n => some n
  | .typeChange _ n _ => some n

def change? : Operation F C → Option C
  | .typeChange _ _ change => some change
  | _ => none

def isAppend : Operation F C → Bool
  | .append _ => true
  | _ => false

end Operation

/-- An edit to the members of an enum that changes what a stored index means. -/
inductive EnumEdit where
  | delete (old : String)
  | insert (new : String)
  | replace (old new : String)
  deriving DecidableEq, Repr

/-- Why one type cannot take the place of another, where `C` describes a nested change. -/
inductive Reason (C : Type) where
  | obviousMismatch
  /-- The members of at least one of two structs or enums are unknown. -/
  | missingMembers
  | structMembers (ops : List (Operation StructMember C))
  | enumMembers (ops : List EnumEdit)
  | enumResize
  | mappingKey
  | mappingValue (inner : C)
  | arrayShrink
  | arrayGrow
  | arrayDynamic
  | arrayValue (inner : C)
  deriving Repr

/-- The type `new` cannot take the place of the type `old`. -/
inductive Change where
  | mk (old new : TypeId) (reason : Reason Change)

namespace Change

def old : Change → TypeId
  | mk o _ _ => o

def new : Change → TypeId
  | mk _ n _ => n

def reason : Change → Reason Change
  | mk _ _ r => r

mutual

def same : Change → Change → Bool
  | mk o n r, mk o' n' r' => o = o' && n = n' && sameReason r r'

def sameReason : Reason Change → Reason Change → Bool
  | .obviousMismatch, .obviousMismatch => true
  | .missingMembers, .missingMembers => true
  | .structMembers ops, .structMembers ops' => sameOperations ops ops'
  | .enumMembers ops, .enumMembers ops' => ops = ops'
  | .enumResize, .enumResize => true
  | .mappingKey, .mappingKey => true
  | .mappingValue inner, .mappingValue inner' => same inner inner'
  | .arrayShrink, .arrayShrink => true
  | .arrayGrow, .arrayGrow => true
  | .arrayDynamic, .arrayDynamic => true
  | .arrayValue inner, .arrayValue inner' => same inner inner'
  | _, _ => false

def sameOperations :
    List (Operation StructMember Change) → List (Operation StructMember Change) → Bool
  | [], [] => true
  | op :: ops, op' :: ops' => sameOperation op op' && sameOperations ops ops'
  | _, _ => false

def sameOperation : Operation StructMember Change → Operation StructMember Change → Bool
  | .append n, .append n' => n = n'
  | .delete o, .delete o' => o = o'
  | .rename o n, .rename o' n' => o = o' && n = n'
  | .replace o n, .replace o' n' => o = o' && n = n'
  | .typeChange o n c, .typeChange o' n' c' => o = o' && n = n' && same c c'
  | _, _ => false

end

end Change

/-- A difference between the storage of two layouts. -/
abbrev ItemOperation := Operation StorageItem Change

namespace ItemOperation

/-- Whether two operations differ at most in the sources of their items. -/
def same : ItemOperation → ItemOperation → Bool
  | .append n, .append n' => n.withoutSource = n'.withoutSource
  | .delete o, .delete o' => o.withoutSource = o'.withoutSource
  | .rename o n, .rename o' n' =>
    o.withoutSource = o'.withoutSource && n.withoutSource = n'.withoutSource
  | .replace o n, .replace o' n' =>
    o.withoutSource = o'.withoutSource && n.withoutSource = n'.withoutSource
  | .typeChange o n c, .typeChange o' n' c' =>
    o.withoutSource = o'.withoutSource && n.withoutSource = n'.withoutSource && c.same c'
  | _, _ => false

def sameLists : List ItemOperation → List ItemOperation → Bool
  | [], [] => true
  | op :: ops, op' :: ops' => same op op' && sameLists ops ops'
  | _, _ => false

end ItemOperation

end UpgradeSafety
