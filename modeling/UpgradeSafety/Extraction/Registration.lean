import UpgradeSafety.Extraction.KnownTypes

/-!
# Registering types

Every type that an annotation refers to is entered under its canonical id. A
struct is entered before its members, so one that refers to itself is met as
already registered; a named value type that stands for itself never ends, and
is an error when the fuel is used up.
-/

namespace UpgradeSafety

namespace Declarations

/-- The canonical id of a raw identifier, with shared names told apart. -/
def canonicalId (ds : Declarations) (raw : String) : TypeId :=
  TypeId.canonicalWith ds.distinctName? raw

/-- The number of annotations in a program and in a contract. -/
def annotationCount (ds : Declarations) (c : Contract) : Nat :=
  let annotations := (Declaration.contract c :: ds.all).flatMap Declaration.annotations
  (annotations.map TypeName.count).foldl (· + ·) 0

/--
More than the annotations that can be met inside one another: between two
structs none is met twice, and no struct is entered twice.
-/
def registrationFuel (ds : Declarations) (c : Contract) : Nat :=
  Nat.pow (ds.annotationCount c + 1) 2

end Declarations

namespace Registration

/-- Makes sure that an id comes from one declaration only. -/
def noteOrigin (id : TypeId) (node : NodeId) : Registering Unit := do
  match (← get).origins.find? id with
  | none => modify fun known => known.putOrigin id node
  | some first => if first = node then return () else throw (.ambiguousTypeId id first node)

def elementaryFootprint (id : TypeId) : Registering Footprint :=
  match Footprint.ofElementary? id with
  | some f => return f
  | none => throw (.unsupportedType id)

/-- The declaration that an annotation names, recorded as the origin of its id. -/
def declarationOf? (ds : Declarations) (id : TypeId) (type : TypeName) :
    Registering (Option Declaration) :=
  match type.declaration? with
  | none => return none
  | some node => do
    let d ← ds.resolve node
    noteOrigin id d.id
    return some d

/-- The kind and the size rule of a type, with the types inside it registered by `inside`. -/
def describe (inside : TypeName → Registering TypeId) (id : TypeId) (label : String) :
    TypeName → Option Declaration → Registering (TypeKind × SizeRule)
  | .elementary .., _ | .function .., _ => return (.value, .known (← elementaryFootprint id))
  | .mapping _ key value _, _ => do
    let key ← inside key
    let value ← inside value
    return (.mapping key value, .known .word)
  | .array _ element _, _ => do
    let element ← inside element
    match id.arrayLength? with
    | none => throw (.unsupportedType id)
    | some .dynamic => return (.array element .dynamic, .known .word)
    | some (.fixed n) => return (.array element (.fixed n), .fixedArray element n)
  | .declared .., some (.contract _) => return (.contract, .known .contract)
  | .declared .., some (.enum e) =>
    return (.enum (some e.members), .known (.packed (Footprint.enumBytes e.members.length)))
  | .declared .., some (.valueType t) => return (.value, .sameAs (← inside t.underlying))
  | .declared .., some (.struct s) => do
    modify fun known => known.putType id label (.struct none)
    let members ← s.members.mapM fun (m : Variable) =>
      return StructMember.mk m.name (← inside m.type)
    return (.struct (some members), .struct (members.map StructMember.type))
  | .declared .., none => throw (.unsupportedType id)

/-- Registers an annotated type with everything inside it and returns its canonical id. -/
def register (ds : Declarations) : Nat → TypeName → Registering TypeId
  | 0, type => throw (.endlessType type.id)
  | fuel + 1, type => do
    match type.description.identifier with
    | none => throw (.missingTypeIdentifier type.id)
    | some raw =>
      let id := ds.canonicalId raw
      let declaration ← declarationOf? ds id type
      if (← get).types.contains id then return id
      let label := type.description.text.getD id
      let (kind, rule) ← describe (register ds fuel) id label type declaration
      modify fun known => (known.putType id label kind).putSizeRule id rule
      return id

end Registration

end UpgradeSafety
