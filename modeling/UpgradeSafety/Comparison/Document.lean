import UpgradeSafety.Comparison.Comparator
import UpgradeSafety.Layout.Document

/-!
# Differences as JSON documents

An operation or a change with its kind and what belongs to it, in full or as a
summary that keeps labels and kinds only.
-/

namespace UpgradeSafety

open Json (Members optionalMember)

def Operation.kind {F C : Type} : Operation F C → String
  | .append _ => "append"
  | .delete _ => "delete"
  | .rename _ _ => "rename"
  | .replace _ _ => "replace"
  | .typeChange _ _ _ => "typechange"

/-- An operation with its fields and, for a change of type, the document of the change. -/
def Operation.document {F C : Type} (field : F → Json) (change : Option Json) (op : Operation F C) :
    Json :=
  .object <|
    ("kind", .string op.kind) :: optionalMember "original" field op.old? ++
      optionalMember "updated" field op.new? ++ optionalMember "change" id change

namespace EnumEdit

def kind : EnumEdit → String
  | .delete _ => "delete"
  | .insert _ => "insert"
  | .replace _ _ => "replace"

def toJson (edit : EnumEdit) : Json :=
  .object <|
    ("kind", .string edit.kind) ::
      match edit with
      | .delete o => [("original", .string o)]
      | .insert n => [("updated", .string n)]
      | .replace o n => [("original", .string o), ("updated", .string n)]

end EnumEdit

def Reason.kind {C : Type} : Reason C → String
  | .obviousMismatch => "obvious mismatch"
  | .missingMembers => "missing members"
  | .structMembers _ => "struct members"
  | .enumMembers _ => "enum members"
  | .enumResize => "enum resize"
  | .mappingKey => "mapping key"
  | .mappingValue _ => "mapping value"
  | .arrayShrink => "array shrink"
  | .arrayGrow => "array grow"
  | .arrayDynamic => "array dynamic"
  | .arrayValue _ => "array value"

namespace Change

mutual

def toJson : Change → Json
  | .mk o n reason =>
    .object <|
      [("original", .string o), ("updated", .string n), ("kind", .string reason.kind)] ++
        reasonMembers reason

/-- What belongs to a reason besides its kind. -/
def reasonMembers : Reason Change → Members
  | .structMembers ops => [("ops", .array (memberOperations ops))]
  | .enumMembers edits => [("ops", .array (edits.map EnumEdit.toJson))]
  | .mappingValue inner => [("inner", toJson inner)]
  | .arrayValue inner => [("inner", toJson inner)]
  | _ => []

def memberOperations : List (Operation StructMember Change) → List Json
  | [] => []
  | op :: rest => memberOperation op :: memberOperations rest

def memberOperation : Operation StructMember Change → Json
  | .typeChange o n change =>
    Operation.document StructMember.toJson (some (toJson change)) (.typeChange o n change)
  | op => Operation.document StructMember.toJson none op

end

mutual

/-- The kinds of a change and of those inside it, each with the kinds of its operations. -/
def outline : Change → List Json
  | .mk _ _ reason => .string reason.kind :: outlineInside reason

def outlineInside : Reason Change → List Json
  | .structMembers ops =>
    ops.map fun op => .array [.string op.kind, .bool op.isAppend]
  | .enumMembers edits => edits.map fun edit => .array [.string edit.kind]
  | .mappingValue inner => outline inner
  | .arrayValue inner => outline inner
  | _ => []

end

end Change

namespace ItemOperation

def toJson (op : ItemOperation) : Json :=
  Operation.document StorageItem.toJson (op.change?.map Change.toJson) op

/-- The kind of an operation, the labels of its items and the outline of its change. -/
def summary (op : ItemOperation) : Json :=
  .object [("kind", .string op.kind),
    ("original", Json.orNull (fun item => .string item.label) op.old?),
    ("updated", Json.orNull (fun item => .string item.label) op.new?),
    ("change", .array ((op.change?.map Change.outline).getD []))]

end ItemOperation

end UpgradeSafety
