import UpgradeSafety.Json.Document
import UpgradeSafety.Layout.Basic

/-!
# Layouts as JSON documents

Slots, sizes and fixed lengths are 256-bit numbers and written as strings. What
is not known is left out: a source, an earlier label, a list of members. An
empty list of members is known and therefore written.
-/

namespace UpgradeSafety

open Json (Members required optional optionalMember)

namespace StorageItem

def toJson (item : StorageItem) : Json :=
  .object <|
    [("contract", .string item.contract), ("label", .string item.label),
      ("type", .string item.type), ("slot", .ofWord item.slot), ("offset", .natural item.offset)] ++
    optionalMember "src" .string item.src ++
    optionalMember "renamedFrom" .string item.renamedFrom

/-- The fields of a storage item in their order. -/
def fields : List String :=
  ["contract", "label", "type", "slot", "offset", "src", "renamedFrom"]

def ofJson? (j : Json) : Option StorageItem := do
  let ms ← j.asRecord? fields
  return {
    contract := ← required Json.asString? "contract" ms
    label := ← required Json.asString? "label" ms
    type := ← required Json.asString? "type" ms
    slot := ← required Json.asWord? "slot" ms
    offset := ← required (Json.asNatural? Numeral.bound64) "offset" ms
    src := ← optional Json.asString? "src" ms
    renamedFrom := ← optional Json.asString? "renamedFrom" ms }

end StorageItem

namespace StructMember

def toJson (m : StructMember) : Json :=
  .object [("label", .string m.label), ("type", .string m.type)]

def ofJson? (j : Json) : Option StructMember := do
  let ms ← j.asRecord? ["label", "type"]
  return {
    label := ← required Json.asString? "label" ms
    type := ← required Json.asString? "type" ms }

end StructMember

namespace ArrayLength

def toJson : ArrayLength → Json
  | .fixed length => .object [("fixed", .ofWord length)]
  | .dynamic => .string "dynamic"

def ofJson? : Json → Option ArrayLength
  | .object [("fixed", length)] => length.asWord?.map .fixed
  | j => if j.asKeyword? = some "dynamic" then some .dynamic else none

end ArrayLength

namespace TypeKind

/-- The name of the kind, and what belongs to it. -/
def members : TypeKind → Members
  | .value => [("kind", .string "value")]
  | .contract => [("kind", .string "contract")]
  | .struct known =>
    ("kind", .string "struct") ::
      optionalMember "members" (fun ms => .array (ms.map StructMember.toJson)) known
  | .enum known => ("kind", .string "enum") :: optionalMember "members" Json.strings known
  | .mapping k v => [("kind", .string "mapping"), ("key", .string k), ("value", .string v)]
  | .array element length =>
    [("kind", .string "array"), ("element", .string element), ("length", length.toJson)]

/-- The names of the kinds, which have a position among them. -/
def names : List String := ["value", "contract", "struct", "enum", "mapping", "array"]

def ofMembers? (ms : Members) : Option TypeKind := do
  match ← required (Json.asKeywordOrPosition? names) "kind" ms with
  | "value" => some .value
  | "contract" => some .contract
  | "struct" => (optional (Json.asList? StructMember.ofJson?) "members" ms).map .struct
  | "enum" => (optional (Json.asList? Json.asString?) "members" ms).map .enum
  | "mapping" =>
    return .mapping (← required Json.asString? "key" ms) (← required Json.asString? "value" ms)
  | "array" =>
    return .array (← required Json.asString? "element" ms)
      (← required ArrayLength.ofJson? "length" ms)
  | _ => none

end TypeKind

namespace TypeItem

def toJson (item : TypeItem) : Json :=
  .object <|
    [("label", .string item.label), ("numberOfBytes", .ofWord item.numberOfBytes)] ++
    item.kind.members

def ofJson? (j : Json) : Option TypeItem := do
  let ms ← j.asObject?
  return {
    label := ← required Json.asString? "label" ms
    numberOfBytes := ← required Json.asWord? "numberOfBytes" ms
    kind := ← TypeKind.ofMembers? ms }

end TypeItem

namespace Layout

def toJson (l : Layout) : Json :=
  .object [("storage", .array (l.storage.map StorageItem.toJson)),
    ("types", .ofTable TypeItem.toJson l.types)]

def ofJson? (j : Json) : Option Layout := do
  let ms ← j.asRecord? ["storage", "types"]
  return {
    storage := ← required (Json.asList? StorageItem.ofJson?) "storage" ms
    types := ← required (Json.asTable? TypeItem.ofJson?) "types" ms }

end Layout

end UpgradeSafety
