import UpgradeSafety.Extraction.KnownTypes

/-!
# Sizing types

The footprint of a registered type, found from the footprints of the types that
it holds by value. A type that holds itself by value has none.
-/

namespace UpgradeSafety

namespace Sizing

/-- A footprint, unless the type `id` is too large to have one. -/
def sized (id : TypeId) : Option Footprint → Registering Footprint
  | some f => return f
  | none => throw (.oversizedType id)

/-- Follows the size rule of `id`, where `of` finds the footprints of other types. -/
def follow (of : TypeId → Registering Footprint) (id : TypeId) : SizeRule → Registering Footprint
  | .known f => return f
  | .sameAs other => of other
  | .fixedArray element length => do sized id ((← of element).fixedArray? length)
  | .struct members => do sized id (Footprint.struct? (← members.mapM of))

/--
Finds the footprint of a type that the `enclosing` types hold by value. These
are distinct and have rules, so fuel for one more than there are rules is
never used up.
-/
def footprintInside : Nat → List TypeId → TypeId → Registering Footprint
  | fuel, enclosing, id => do
    match (← get).footprints.find? id with
    | some f => return f
    | none =>
      if id ∈ enclosing then throw (.selfContainingType id)
      else
        match (← get).sizeRules.find? id with
        | none => throw (.unsupportedType id)
        | some rule =>
          match fuel with
          | 0 => throw (.selfContainingType id)
          | fuel + 1 =>
            let f ← follow (footprintInside fuel (id :: enclosing)) id rule
            modify fun known => known.putFootprint id f
            return f

/-- The footprint of a registered type. -/
def footprint (id : TypeId) : Registering Footprint := do
  footprintInside ((← get).sizeRules.size + 1) [] id

/-- Sizes the given types one after another. -/
def sizeAll (ids : List TypeId) : Registering Unit := ids.forM fun id => discard (footprint id)

end Sizing

end UpgradeSafety
