import UpgradeSafety.Comparison.Rule

/-!
# Comparing layouts

Fields are matched by position and types by their rules, each pair of types at
most once: a comparator remembers every result and which pairs are still being
compared, and a pair met again while it is being compared is an error. The memory
outlives a failed comparison, so a comparator can be asked again.
-/

namespace UpgradeSafety

abbrev TypePair := TypeId × TypeId

/-- A pair of types that is needed to compare itself, met at the field `label`. -/
structure Recursion where
  old : TypeId
  new : TypeId
  label : String
  deriving DecidableEq, Repr

namespace Recursion

def message (r : Recursion) : String :=
  s!"Recursion found in {r.label} while comparing {r.old} with {r.new}: " ++
    "recursive types are not supported"

end Recursion

namespace Comparison

/-- What a comparator remembers. -/
structure Memory where
  /-- The results of finished pairs. -/
  results : List (TypePair × Option Change)
  /-- The pairs that are being compared, the innermost first. -/
  inProgress : List TypePair
  /-- Whether types were let pass although their members are unknown. -/
  letUnknownPass : Bool

def Memory.fresh : Memory := ⟨[], [], false⟩

/-- A step of a comparison, which keeps what it learnt even where it fails. -/
abbrev Step (α : Type) := ExceptT Recursion (StateM Memory) α

/-- Runs a step while `pair` counts as being compared. -/
def whileComparing {α : Type} (pair : TypePair) (step : Step α) : Step α :=
  fun memory =>
    let (result, after) := step { memory with inProgress := pair :: memory.inProgress }
    (result, { after with inProgress := after.inProgress.erase pair })

/-- A way to find out whether the second type can take the place of the first at a field. -/
abbrev TypeComparison := String → TypeId → TypeId → Step (Option Change)

section Fields

variable {F : Type} [Field F]

def sameLabel (old new : F) : Bool :=
  Field.label old = Field.label new ||
    Field.renamedFrom new = some (Field.label old)

/-- The difference between two fields, given how their types differ. -/
def fieldOperation (old new : F) : Option Change → Option (Operation F Change)
  | none => if sameLabel old new then none else some (.rename old new)
  | some change =>
    if sameLabel old new then some (.typeChange old new change)
    else some (.replace old new)

/-- Compares two sequences of fields position by position. -/
def fields (types : TypeComparison) : List F → List F → Step (List (Operation F Change))
  | [], new => pure (new.map .append)
  | old, [] => pure (old.map .delete)
  | o :: old, n :: new => do
    let change ← types (Field.label n) (Field.type o) (Field.type n)
    let rest ← fields types old new
    pure ((fieldOperation o n change).toList ++ rest)

end Fields

/-- Applies the rule of a pair, comparing the types inside by `types`. -/
def followRule (allowUnknown : Bool) (types : TypeComparison) (label : String) (o n : TypeId) :
    Rule → Step (Option Change)
  | .compatible => pure none
  | .incompatible reason => pure (some (.mk o n reason))
  | .unknownMembers =>
    if allowUnknown then do
      modify fun memory => { memory with letUnknownPass := true }
      pure none
    else pure (some (.mk o n .missingMembers))
  | .members old new => do
    match ← fields types old new with
    | [] => pure none
    | ops => pure (some (.mk o n (.structMembers ops)))
  | .mapping oldKey newKey oldValue newValue => do
    match ← types label oldKey newKey with
    | some _ => pure (some (.mk o n .mappingKey))
    | none =>
      let inner ← types label oldValue newValue
      pure (inner.map fun inner => .mk o n (.mappingValue inner))
  | .element old new => do
    let inner ← types label old new
    pure (inner.map fun inner => .mk o n (.arrayValue inner))

/--
Compares two types, with at most `fuel` pairs of types inside one another. The
pairs in progress are distinct and both their types are registered, so fuel for
one more than there are pairs of registered types is never used up.
-/
def types (old new : Layout) (allowUnknown : Bool) : Nat → TypeComparison
  | fuel, label, o, n => do
    let memory ← get
    match memory.results.lookup (o, n) with
    | some change => pure change
    | none =>
      if (o, n) ∈ memory.inProgress then throw ⟨o, n, label⟩
      else
        match fuel with
        | 0 => throw ⟨o, n, label⟩
        | fuel + 1 =>
          let change ← whileComparing (o, n)
            (followRule allowUnknown (types old new allowUnknown fuel) label o n
              (Rule.ofTypes old new o n))
          modify fun memory => { memory with results := ((o, n), change) :: memory.results }
          pure change

/-- What a comparison of two layouts comes to. -/
abbrev Outcome := Except Recursion (List ItemOperation)

/-- Whether two outcomes differ at most in the sources of their items. -/
def Outcome.same : Outcome → Outcome → Bool
  | .ok ops, .ok ops' => ItemOperation.sameLists ops ops'
  | .error cause, .error cause' => cause = cause'
  | _, _ => false

end Comparison

/-- Compares an old layout with a new one. -/
structure Comparator where
  old : Layout
  new : Layout
  /-- Whether types with unknown members are let pass. -/
  allowUnknown : Bool
  memory : Comparison.Memory

namespace Comparator

def fresh (old new : Layout) (allowUnknown : Bool) : Comparator :=
  ⟨old, new, allowUnknown, .fresh⟩

/-- More than the pairs of types that can be in progress at once. -/
def fuel (c : Comparator) : Nat := c.old.types.size * c.new.types.size + 1

/-- Every difference but added items, and the comparator afterwards. -/
def differences (c : Comparator) : Comparison.Outcome × Comparator :=
  let (result, memory) :=
    Comparison.fields (Comparison.types c.old c.new c.allowUnknown c.fuel)
      c.old.storage c.new.storage c.memory
  (result.map (List.filter fun op => !op.isAppend), { c with memory })

/-- Whether a comparison so far let types pass although their members are unknown. -/
def letUnknownPass (c : Comparator) : Bool := c.memory.letUnknownPass

end Comparator

/-- The differences between two layouts, found by a fresh comparator. -/
def compareLayouts (old new : Layout) (allowUnknown : Bool) : Comparison.Outcome :=
  (Comparator.fresh old new allowUnknown).differences.1

/-- Whether a new layout may replace an old one. -/
inductive Verdict where
  | safe
  | rejected (ops : List ItemOperation)
  | undecided (cause : Recursion)

/-- An upgrade is safe when nothing is reported. -/
def judgeUpgrade (old new : Layout) (allowUnknown : Bool) : Verdict :=
  match compareLayouts old new allowUnknown with
  | .ok [] => .safe
  | .ok ops => .rejected ops
  | .error cause => .undecided cause

end UpgradeSafety
