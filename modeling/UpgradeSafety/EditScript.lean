/-!
# Cheapest edit scripts

An alignment of two lists as a list of steps. Replacing an element costs more
than inserting or deleting one and less than both together. A table is filled
with the costs of turning the first elements of one list into the first elements
of the other. The script is read off it on the way back from the last entry: it
pairs two elements where that is as cheap as anything else, else inserts, and
deletes only where nothing else is as cheap.
-/

namespace UpgradeSafety

/-- One step from an old list to a new one. -/
inductive Edit (α : Type) where
  | keep (old new : α)
  | substitute (old new : α)
  /-- The step is an append if no old element comes after it. -/
  | insert (new : α) (append : Bool)
  | delete (old : α)
  deriving DecidableEq, Repr

namespace Edit

variable {α : Type}

def substitutionCost : Nat := 3

/-- The cost of an insertion, and of a deletion. -/
def insertionCost : Nat := 2

def cost : Edit α → Nat
  | .keep _ _ => 0
  | .substitute _ _ => substitutionCost
  | .insert _ _ => insertionCost
  | .delete _ => insertionCost

def old? : Edit α → Option α
  | .keep o _ => some o
  | .substitute o _ => some o
  | .insert _ _ => none
  | .delete o => some o

def new? : Edit α → Option α
  | .keep _ n => some n
  | .substitute _ n => some n
  | .insert n _ => some n
  | .delete _ => none

end Edit

namespace EditScript

variable {α : Type} [DecidableEq α]

/-- The step that pairs two elements. -/
def pair (o n : α) : Edit α := if o = n then .keep o n else .substitute o n

/-! ## The table of costs -/

/-- The costs of inserting none, one and more of the elements of `new`. -/
def firstRow (new : List α) : List Nat :=
  (List.range (new.length + 1)).map fun j => j * Edit.insertionCost

/-- The entries of a row behind the entry `left`, given the row above from over `left` on. -/
def rowBehind (o : α) (left : Nat) : List α → List Nat → List Nat
  | n :: ns, diagonal :: above :: rest =>
    let paired := diagonal + (pair o n).cost
    let deleted := above + Edit.insertionCost
    let inserted := left + Edit.insertionCost
    let entry := min (min paired deleted) inserted
    entry :: rowBehind o entry ns (above :: rest)
  | _, _ => []

/-- The row below another one, for the old element `o`. -/
def rowBelow (o : α) (new : List α) : List Nat → List Nat
  | [] => []
  | above :: rest =>
    let first := above + Edit.insertionCost
    first :: rowBehind o first new (above :: rest)

/-- A row and the rows below it, one for each old element. -/
def rowsFrom (new : List α) (row : List Nat) : List α → List (List Nat)
  | [] => [row]
  | o :: old => row :: rowsFrom new (rowBelow o new row) old

/-- The costs of turning the first elements of `old` into the first elements of `new`. -/
def costs (old new : List α) : List (List Nat) := rowsFrom new (firstRow new) old

/-- The entry of a table for `i` old and `j` new elements; none outside the table. -/
def costAt? (table : List (List Nat)) (i j : Nat) : Option Nat := table[i]?.bind fun row => row[j]?

/-! ## The way back -/

/--
The step that ends at the entry for `i` old and `j` new elements, and the entry where
it starts. There is none at the first entry, nor where an element or an entry is missing.
-/
def lastStep? (table : List (List Nat)) (old new : List α) : Nat → Nat → Option (Edit α × Nat × Nat)
  | 0, 0 => none
  | 0, j + 1 => do
    let n ← new[j]?
    let here ← costAt? table 0 (j + 1)
    let left ← costAt? table 0 j
    if here = left + Edit.insertionCost then return (.insert n (decide (0 = old.length)), 0, j)
    -- all that is left would be to delete an old element, and there is none
    else none
  | i + 1, 0 => do
    let o ← old[i]?
    return (.delete o, i, 0)
  | i + 1, j + 1 => do
    let o ← old[i]?
    let n ← new[j]?
    let here ← costAt? table (i + 1) (j + 1)
    let diagonal ← costAt? table i j
    let left ← costAt? table (i + 1) j
    if here = diagonal + (pair o n).cost then return (pair o n, i, j)
    else if here = left + Edit.insertionCost then
      return (.insert n (decide (i + 1 = old.length)), i + 1, j)
    else return (.delete o, i, j + 1)

/--
The steps from the first entry to the one for `i` old and `j` new elements, the last step
first; none if there are more steps than `bound` or one of them is missing.
-/
def wayBack? (table : List (List Nat)) (old new : List α) :
    Nat → Nat → Nat → Option (List (Edit α))
  | _, 0, 0 => some []
  | 0, _, _ => none
  | bound + 1, i, j =>
    (lastStep? table old new i j).bind fun (step, i', j') =>
      (wayBack? table old new bound i' j').map (step :: ·)

/-- The cheapest script from `old` to `new`, if the way back stays inside the table. -/
def between? (old new : List α) : Option (List (Edit α)) :=
  (wayBack? (costs old new) old new (old.length + new.length) old.length new.length).map
    List.reverse

/-- The cheapest script from `old` to `new`. The way back never leaves the table. -/
def between (old new : List α) : List (Edit α) := (between? old new).getD []

end EditScript

end UpgradeSafety
