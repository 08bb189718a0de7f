/-!
# Tables keyed by strings

A finite map kept as its entries in increasing order of key, which is the order
of the keys' UTF-8 bytes. Since the order is part of the type, two tables are
equal exactly when they map the same keys to the same values.
-/

namespace UpgradeSafety

/-- Entries with strictly increasing keys. -/
structure Table (α : Type) where
  entries : List (String × α)
  sorted : (entries.map Prod.fst).Pairwise (· < ·)
  deriving DecidableEq

namespace Table

variable {α β : Type}

/-- Puts an entry in its place, replacing one with the same key. -/
def insertEntry (key : String) (value : α) : List (String × α) → List (String × α)
  | [] => [(key, value)]
  | (k, v) :: rest =>
    if key < k then (key, value) :: (k, v) :: rest
    else if key = k then (key, value) :: rest
    else (k, v) :: insertEntry key value rest

theorem mem_keys_insertEntry {key x : String} {value : α} {entries : List (String × α)} :
    x ∈ (insertEntry key value entries).map Prod.fst ↔ x = key ∨ x ∈ entries.map Prod.fst := by
  induction entries with
  | nil => simp [insertEntry]
  | cons e rest ih =>
    obtain ⟨k, v⟩ := e
    simp only [insertEntry]
    split
    · simp
    · split
      · next heq => subst heq; simp
      · simp only [List.map_cons, List.mem_cons, ih]
        constructor
        · rintro (h | h | h) <;> simp [h]
        · rintro (h | h | h) <;> simp [h]

theorem lt_of_not_lt_of_ne {a b : String} (h : ¬ a < b) (hne : a ≠ b) : b < a :=
  String.not_le.1 fun hle => hne (String.le_antisymm hle (String.not_lt.1 h))

theorem sorted_insertEntry {key : String} {value : α} {entries : List (String × α)}
    (h : (entries.map Prod.fst).Pairwise (· < ·)) :
    ((insertEntry key value entries).map Prod.fst).Pairwise (· < ·) := by
  induction entries with
  | nil => simp [insertEntry]
  | cons e rest ih =>
    obtain ⟨k, v⟩ := e
    simp only [List.map_cons, List.pairwise_cons] at h
    obtain ⟨hk, hrest⟩ := h
    simp only [insertEntry]
    split
    · next hlt =>
      simp only [List.map_cons, List.pairwise_cons]
      refine ⟨fun x hx => ?_, hk, hrest⟩
      rcases List.mem_cons.1 hx with rfl | hx
      · exact hlt
      · exact String.lt_trans hlt (hk x hx)
    · split
      · next heq =>
        subst heq
        simp only [List.map_cons, List.pairwise_cons]
        exact ⟨hk, hrest⟩
      · next hlt hne =>
        simp only [List.map_cons, List.pairwise_cons]
        refine ⟨fun x hx => ?_, ih hrest⟩
        rcases mem_keys_insertEntry.1 hx with rfl | hx
        · exact lt_of_not_lt_of_ne hlt hne
        · exact hk x hx

def empty : Table α := ⟨[], List.Pairwise.nil⟩

def insert (t : Table α) (key : String) (value : α) : Table α :=
  ⟨insertEntry key value t.entries, sorted_insertEntry t.sorted⟩

/-- Inserts the entries in order, so a later one replaces an earlier one. -/
def ofList (entries : List (String × α)) : Table α :=
  entries.foldl (fun t e => t.insert e.1 e.2) empty

def find? (t : Table α) (key : String) : Option α := t.entries.lookup key

def contains (t : Table α) (key : String) : Bool := (t.find? key).isSome

def size (t : Table α) : Nat := t.entries.length

def keys (t : Table α) : List String := t.entries.map Prod.fst

def values (t : Table α) : List α := t.entries.map Prod.snd

/-- Changes the value of `key`, if it has one. -/
def adjust (t : Table α) (key : String) (change : α → α) : Table α :=
  match t.find? key with
  | some value => t.insert key (change value)
  | none => t

instance : Inhabited (Table α) := ⟨empty⟩

end Table

end UpgradeSafety
