import UpgradeSafety.Comparison.Change
import UpgradeSafety.EditScript
import UpgradeSafety.Footprint

/-!
# Which types can take each other's place

The rules for one pair of types, without what lies inside them. A rule either
settles the pair or says which pairs further inside decide about it.
-/

namespace UpgradeSafety

/-- The kind that an id tells of a type that no registry describes; none if it tells nothing. -/
def TypeId.impliedKind? (id : TypeId) : Option TypeKind :=
  let text := id.toList
  if "t_struct(".toList.isPrefixOf text then some (.struct none)
  else if "t_enum(".toList.isPrefixOf text then some (.enum none)
  else if "t_contract(".toList.isPrefixOf text then some .contract
  else none

/-- What a layout tells of a type. -/
def Layout.kind? (l : Layout) (id : TypeId) : Option TypeKind :=
  match l.type? id with
  | some item => some item.kind
  | none => id.impliedKind?

/-- The id that a value type is compared by: payable addresses are addresses. -/
def TypeId.family (id : TypeId) : TypeId := if id = "t_address_payable" then "t_address" else id

def TypeId.isAddress (id : TypeId) : Bool := id.family = "t_address"

/-- The edits between two lists of enum members, without those that leave every index alone. -/
def enumEdits (old new : List String) : List EnumEdit :=
  (EditScript.between old new).filterMap fun step =>
    match step with
    | .keep _ _ => none
    | .insert _ true => none
    | .insert n false => some (.insert n)
    | .substitute o n => some (.replace o n)
    | .delete o => some (.delete o)

/-- What decides whether one type can take the place of another. -/
inductive Rule where
  | compatible
  | incompatible (reason : Reason Change)
  /-- Members that would have to be compared are unknown. -/
  | unknownMembers
  | members (old new : List StructMember)
  /-- The keys, and where they are compatible the values. -/
  | mapping (oldKey newKey oldValue newValue : TypeId)
  | element (old new : TypeId)

namespace Rule

/-- Enums keep their indices and their width, or may not be exchanged. -/
def enums (old new : List String) : Rule :=
  if Footprint.enumBytes old.length = Footprint.enumBytes new.length then
    match enumEdits old new with
    | [] => compatible
    | edits => incompatible (.enumMembers edits)
  else incompatible .enumResize

/-- Arrays keep their length, and then their elements decide. -/
def arrays (oldElement newElement : TypeId) : ArrayLength → ArrayLength → Rule
  | .fixed _, .dynamic => incompatible .arrayDynamic
  | .dynamic, .fixed _ => incompatible .arrayDynamic
  | .fixed o, .fixed n =>
    if n < o then incompatible .arrayShrink
    else if o < n then incompatible .arrayGrow
    else element oldElement newElement
  | .dynamic, .dynamic => element oldElement newElement

/-- The rule for types of the given kinds; a type of which nothing is known has none. -/
def ofKinds (old new : TypeId) : Option TypeKind → Option TypeKind → Rule
  | some .contract, some .contract => compatible
  | some .contract, some .value =>
    if new.isAddress then compatible else incompatible .obviousMismatch
  | some .value, some .contract =>
    if old.isAddress then compatible else incompatible .obviousMismatch
  | some .value, some .value =>
    if old.family = new.family then compatible else incompatible .obviousMismatch
  | some (.struct (some o)), some (.struct (some n)) => members o n
  | some (.struct _), some (.struct _) => unknownMembers
  | some (.enum (some o)), some (.enum (some n)) => enums o n
  | some (.enum _), some (.enum _) => unknownMembers
  | some (.mapping ok ov), some (.mapping nk nv) => mapping ok nk ov nv
  | some (.array oe ol), some (.array ne nl) => arrays oe ne ol nl
  | some _, some _ => incompatible .obviousMismatch
  | _, _ => if old = new then compatible else incompatible .obviousMismatch

/-- The rule for a type of one layout and a type of another. -/
def ofTypes (old new : Layout) (o n : TypeId) : Rule :=
  ofKinds o n (old.kind? o) (new.kind? n)

end Rule

end UpgradeSafety
