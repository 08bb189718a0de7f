import UpgradeSafety.Extraction.Registration
import UpgradeSafety.Extraction.Sizing

/-!
# Extracting layouts

The layout of a contract in a compiled program: the storage variables of its
bases, the most basic one first, and of the contract itself are placed one after
another in the order of their declaration.
-/

namespace UpgradeSafety

/-- Why a layout could not be extracted, and at which location if it was at a variable. -/
structure ExtractionError where
  location : Option String
  cause : ResolutionError
  deriving DecidableEq, Repr

def ExtractionError.message (e : ExtractionError) : String :=
  match e.location with
  | none => e.cause.message
  | some location => location ++ ": " ++ e.cause.message

namespace Extraction

/-- Attaches a location to the error of a step. -/
def located {α : Type} (location : String) : Except ResolutionError α → Except ExtractionError α
  | .ok a => .ok a
  | .error cause => .error ⟨some location, cause⟩

def unlocated {α : Type} : Except ResolutionError α → Except ExtractionError α
  | .ok a => .ok a
  | .error cause => .error ⟨none, cause⟩

/-- The types, the first free position and the items after some of the variables. -/
structure Progress where
  known : KnownTypes
  free : Position
  items : List StorageItem

def Progress.start : Progress := ⟨.empty, .origin, []⟩

/-- Registers and sizes the type of a variable and finds the place of the variable. -/
def placeVariable (ds : Declarations) (fuel : Nat) (v : Variable) (free : Position) :
    Registering (TypeId × Position × Position) := do
  let type ← Registration.register ds fuel v.type
  let f ← Sizing.footprint type
  match free.place f with
  | (some start, next) => return (type, start, next)
  | (none, _) => throw (.oversizedType type)

/-- Lays out a variable that the contract `base` declares. -/
def addVariable (ds : Declarations) (decode : String → String) (fuel : Nat) (p : Progress)
    (base : Contract) (v : Variable) : Except ExtractionError Progress := do
  let location := decode v.src
  let ((type, start, next), known) ← located location ((placeVariable ds fuel v p.free).run p.known)
  let item : StorageItem :=
    { contract := base.name
      label := v.name
      type
      slot := start.slot
      offset := start.offset
      src := some location
      renamedFrom := v.earlierLabel? }
  return ⟨known, next, p.items ++ [item]⟩

/-- The storage variables of contracts in order, each with the contract that declares it. -/
def variablesOf (bases : List Contract) : List (Contract × Variable) :=
  bases.flatMap fun base => base.storedVariables.map (base, ·)

/-- The layout of a contract, with source locations as `decode` writes them. -/
def layout (ds : Declarations) (decode : String → String) (c : Contract) :
    Except ExtractionError Layout := do
  let bases ← unlocated (ds.lineage c)
  let p ← (variablesOf bases).foldlM
    (fun p (base, v) => addVariable ds decode (ds.registrationFuel c) p base v) Progress.start
  let (_, known) ← located (decode c.src) ((Sizing.sizeAll p.known.withoutSize).run p.known)
  return ⟨p.items, known.types⟩

/-- The layout of the only contract of a name. -/
def layoutNamed (ds : Declarations) (decode : String → String) (name : String) :
    Except ExtractionError Layout := do
  layout ds decode (← unlocated (ds.contractNamed name))

end Extraction

end UpgradeSafety
