import UpgradeSafety.Numeral
import UpgradeSafety.Text.Split

/-!
# Source locations

The compiler writes a location as start, length and file number. With the files
at hand it is decoded to a path and a line; a location that is not of that form
or in a file that is not at hand stays as it is. Of a file, only its path and
the bytes at which its lines begin are kept, and a line is found by search.
-/

namespace UpgradeSafety

/--
Where the test begins to fail in a window of the entries, found by halving it.
The entries that pass are expected in front of those that fail.
-/
def partitionPointIn {α : Type} (passes : α → Bool) (xs : Array α) (low high : Nat)
    (inside : high ≤ xs.size) : Nat :=
  if wide : low < high then
    let middle := low + (high - low) / 2
    if passes xs[middle] then partitionPointIn passes xs (middle + 1) high inside
    else partitionPointIn passes xs low middle (by omega)
  else low
termination_by high - low

/-- How many entries come before the first that fails. -/
def partitionPoint {α : Type} (passes : α → Bool) (xs : Array α) : Nat :=
  partitionPointIn passes xs 0 xs.size (Nat.le_refl _)

/-- The bytes at which the line breaks of a text are, if it begins at an offset. -/
def lineBreaks (offset : Nat) : List Char → List Nat
  | [] => []
  | c :: rest =>
    if c = '\n' then offset :: lineBreaks (offset + c.utf8Size) rest
    else lineBreaks (offset + c.utf8Size) rest

theorem le_of_mem_lineBreaks {text : List Char} {offset n : Nat} (h : n ∈ lineBreaks offset text) :
    offset ≤ n := by
  induction text generalizing offset with
  | nil => cases h
  | cons c rest ih =>
    rw [lineBreaks] at h
    split at h
    · rcases List.mem_cons.1 h with rfl | behind
      · exact Nat.le_refl _
      · exact Nat.le_trans (Nat.le_add_right _ _) (ih behind)
    · exact Nat.le_trans (Nat.le_add_right _ _) (ih h)

theorem increasing_lineBreaks (offset : Nat) (text : List Char) :
    (lineBreaks offset text).Pairwise (· < ·) := by
  induction text generalizing offset with
  | nil => exact .nil
  | cons c rest ih =>
    rw [lineBreaks]
    split
    · refine .cons (fun n behind => ?_) (ih _)
      have := le_of_mem_lineBreaks behind
      have := c.utf8Size_pos
      omega
    · exact ih _

/-- The bytes at which the lines of a text begin. -/
def lineStarts (content : String) : List Nat :=
  0 :: (lineBreaks 0 content.toList).map (· + 1)

theorem increasing_lineStarts (content : String) : (lineStarts content).Pairwise (· < ·) := by
  refine .cons (fun n behind => ?_) ?_
  · obtain ⟨m, -, rfl⟩ := List.mem_map.1 behind
    exact Nat.succ_pos m
  · exact (increasing_lineBreaks 0 content.toList).map _ fun _ _ => Nat.succ_lt_succ

structure SourceFile where
  path : String
  content : String
  deriving DecidableEq, Repr

/-- What is kept of a file to find lines in it. -/
structure LineTable where
  path : String
  starts : Array Nat
  increasing : starts.toList.Pairwise (· < ·)
  deriving DecidableEq

/-- The number of the line that a byte is in. -/
def LineTable.line (table : LineTable) (start : Nat) : Nat :=
  partitionPoint (· ≤ start) table.starts

def SourceFile.lineTable (file : SourceFile) : LineTable :=
  ⟨file.path, (lineStarts file.content).toArray, increasing_lineStarts file.content⟩

/-- The line tables of the files at hand by number, the latest first. -/
structure SourceFiles where
  tables : List (Nat × LineTable)
  deriving DecidableEq

namespace SourceFiles

def empty : SourceFiles := ⟨[]⟩

/-- Adds a file, in place of any other with its number. -/
def add (s : SourceFiles) (index : Nat) (file : SourceFile) : SourceFiles :=
  ⟨(index, file.lineTable) :: s.tables⟩

/-- Adds files in order, so a later one takes the place of an earlier one. -/
def ofList (files : List (Nat × SourceFile)) : SourceFiles :=
  files.foldl (fun s file => s.add file.1 file.2) empty

def find? (s : SourceFiles) (index : Nat) : Option LineTable := s.tables.lookup index

/-- The start and the file number of a location. -/
def parts? (src : String) : Option (Nat × Nat) :=
  match Text.splitOn ':' src.toList with
  | start :: _ :: index :: _ => do
    return (← Numeral.read? Numeral.bound64 start, ← Numeral.read? Numeral.bound32 index)
  | _ => none

/-- The lines of the file that a location is in, and its start. -/
def located? (s : SourceFiles) (src : String) : Option (LineTable × Nat) := do
  let (start, index) ← parts? src
  return (← s.find? index, start)

/-- The path and line of a location, or the location itself. -/
def decode (s : SourceFiles) (src : String) : String :=
  match s.located? src with
  | some (table, start) => table.path ++ ":" ++ Numeral.write (table.line start)
  | none => src

end SourceFiles

end UpgradeSafety
