import UpgradeSafety.Compilation.Declarations
import UpgradeSafety.Footprint
import UpgradeSafety.Layout.Basic

/-!
# The types met so far

What an extraction knows of the types of a contract: their items, the rules from
which their sizes follow, the sizes found so far, and the declarations that the
ids of declared types came from. Sizes are found after registration, because a
struct may be met again, behind a mapping, before its members are known.
-/

namespace UpgradeSafety

/-- How the footprint of a type follows from those of others. -/
inductive SizeRule where
  | known (footprint : Footprint)
  | sameAs (other : TypeId)
  | fixedArray (element : TypeId) (length : Nat)
  | struct (members : List TypeId)
  deriving DecidableEq, Repr

structure KnownTypes where
  types : Table TypeItem
  sizeRules : Table SizeRule
  footprints : Table Footprint
  origins : Table NodeId

namespace KnownTypes

def empty : KnownTypes := ⟨.empty, .empty, .empty, .empty⟩

/-- Enters a type whose size is still to be found. -/
def putType (k : KnownTypes) (id : TypeId) (label : String) (kind : TypeKind) : KnownTypes :=
  { k with types := k.types.insert id ⟨label, 0, kind⟩ }

def putSizeRule (k : KnownTypes) (id : TypeId) (rule : SizeRule) : KnownTypes :=
  { k with sizeRules := k.sizeRules.insert id rule }

/-- Enters the size of a type. -/
def putFootprint (k : KnownTypes) (id : TypeId) (f : Footprint) : KnownTypes :=
  { k with
    footprints := k.footprints.insert id f
    types := k.types.adjust id fun item => { item with numberOfBytes := f.bytes } }

def putOrigin (k : KnownTypes) (id : TypeId) (node : NodeId) : KnownTypes :=
  { k with origins := k.origins.insert id node }

/-- The registered types without a size. -/
def withoutSize (k : KnownTypes) : List TypeId :=
  k.sizeRules.keys.filter fun id => !k.footprints.contains id

end KnownTypes

/-- A step of an extraction, which works on the types met so far. -/
abbrev Registering (α : Type) := StateT KnownTypes (Except ResolutionError) α

end UpgradeSafety
