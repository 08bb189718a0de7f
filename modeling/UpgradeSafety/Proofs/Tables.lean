import Mathlib.Data.List.Nodup
import Mathlib.Tactic.Lemma
import UpgradeSafety.Table

/-!
# Looking up what was entered

A table maps the last entered key to its value and every other key as before.
-/

namespace UpgradeSafety

namespace Table

variable {α : Type}

lemma lookup_insertEntry_self (key : String) (value : α) (entries : List (String × α)) :
    (insertEntry key value entries).lookup key = some value := by
  induction entries with
  | nil => simp [insertEntry]
  | cons e rest ih =>
    obtain ⟨k, v⟩ := e
    rw [insertEntry]
    by_cases before : key < k
    · simp [before]
    · by_cases same : key = k
      · simp [same]
      · have differs : (key == k) = false := beq_eq_false_iff_ne.2 same
        rw [if_neg before, if_neg same, List.lookup_cons, differs]
        exact ih

lemma lookup_insertEntry_of_ne {key other : String} (h : other ≠ key) (value : α)
    (entries : List (String × α)) :
    (insertEntry key value entries).lookup other = entries.lookup other := by
  have hk : (other == key) = false := beq_eq_false_iff_ne.2 h
  induction entries with
  | nil => simp [insertEntry, List.lookup_cons, hk]
  | cons e rest ih =>
    obtain ⟨k, v⟩ := e
    rw [insertEntry]
    by_cases before : key < k
    · rw [if_pos before, List.lookup_cons, hk]
    · by_cases same : key = k
      · subst same
        rw [if_neg before, if_pos rfl, List.lookup_cons, List.lookup_cons, hk]
      · rw [if_neg before, if_neg same, List.lookup_cons, List.lookup_cons, ih]

@[simp] lemma find?_empty (key : String) : (empty : Table α).find? key = none := rfl

@[simp] lemma find?_insert_self (t : Table α) (key : String) (value : α) :
    (t.insert key value).find? key = some value :=
  lookup_insertEntry_self key value t.entries

lemma find?_insert_of_ne (t : Table α) {key other : String} (h : other ≠ key) (value : α) :
    (t.insert key value).find? other = t.find? other :=
  lookup_insertEntry_of_ne h value t.entries

lemma find?_insert (t : Table α) (key other : String) (value : α) :
    (t.insert key value).find? other = if other = key then some value else t.find? other := by
  by_cases h : other = key
  · rw [if_pos h, h, find?_insert_self]
  · rw [if_neg h, find?_insert_of_ne t h]

lemma find?_adjust (t : Table α) (key other : String) (change : α → α) :
    (t.adjust key change).find? other =
      if other = key then (t.find? key).map change else t.find? other := by
  rw [adjust]
  cases found : t.find? key with
  | some value => rw [find?_insert, Option.map_some]
  | none =>
    by_cases h : other = key
    · simp [h, found]
    · rw [if_neg h]

/-- A key that is found is none of those that are not. -/
lemma ne_of_find? {t : Table α} {key other : String} {value : α} (fresh : t.find? key = none)
    (h : t.find? other = some value) : other ≠ key := by
  rintro rfl
  rw [fresh] at h
  cases h

lemma contains_iff {t : Table α} {key : String} :
    t.contains key = true ↔ ∃ value, t.find? key = some value := Option.isSome_iff_exists

lemma mem_entries_of_find? {t : Table α} {key : String} {value : α}
    (h : t.find? key = some value) : (key, value) ∈ t.entries := by
  obtain ⟨before, after, parts, _⟩ := List.lookup_eq_some_iff.1 h
  rw [parts]
  exact List.mem_append_right _ List.mem_cons_self

lemma mem_keys_of_find? {t : Table α} {key : String} {value : α}
    (h : t.find? key = some value) : key ∈ t.keys :=
  List.mem_map.2 ⟨_, mem_entries_of_find? h, rfl⟩

lemma find?_of_mem_keys {t : Table α} {key : String} (h : key ∈ t.keys) :
    ∃ value, t.find? key = some value := by
  obtain ⟨entry, entered, rfl⟩ := List.mem_map.1 h
  apply Option.ne_none_iff_exists'.1
  intro none
  have differs := List.lookup_eq_none_iff.1 none entry entered
  simp at differs

lemma contains_iff_mem_keys {t : Table α} {key : String} :
    t.contains key = true ↔ key ∈ t.keys := by
  rw [contains_iff]
  constructor
  · rintro ⟨value, found⟩
    exact mem_keys_of_find? found
  · exact find?_of_mem_keys

lemma mem_values_of_find? {t : Table α} {key : String} {value : α}
    (h : t.find? key = some value) : value ∈ t.values :=
  List.mem_map.2 ⟨_, mem_entries_of_find? h, rfl⟩

/-- A key greater than all others is entered behind them. -/
lemma insertEntry_greatest {key : String} (value : α) {entries : List (String × α)}
    (greatest : ∀ k ∈ entries.map Prod.fst, k < key) :
    insertEntry key value entries = entries ++ [(key, value)] := by
  induction entries with
  | nil => rfl
  | cons e rest ih =>
    obtain ⟨k, v⟩ := e
    have before : k < key := greatest k List.mem_cons_self
    have notBefore : ¬ key < k := fun h => String.lt_irrefl k (String.lt_trans before h)
    have different : key ≠ k := fun same => String.lt_irrefl k (same ▸ before)
    rw [insertEntry, if_neg notBefore, if_neg different,
      ih fun x member => greatest x (List.mem_cons_of_mem _ member), List.cons_append]

/-- Entries in increasing order are entered one behind the other. -/
lemma entries_insertAll (table : Table α) (entries : List (String × α))
    (sorted : ((table.entries ++ entries).map Prod.fst).Pairwise (· < ·)) :
    (entries.foldl (fun t e => t.insert e.1 e.2) table).entries = table.entries ++ entries := by
  induction entries generalizing table with
  | nil => simp
  | cons e rest ih =>
    have split := List.pairwise_append.1 (List.map_append ▸ sorted)
    have greatest (k : String) (member : k ∈ table.entries.map Prod.fst) : k < e.1 :=
      split.2.2 k member e.1 List.mem_cons_self
    have behind : (table.insert e.1 e.2).entries = table.entries ++ [e] :=
      insertEntry_greatest e.2 greatest
    have next := ih (table.insert e.1 e.2) (by rw [behind]; simpa using sorted)
    rw [behind] at next
    simpa using next

lemma eq_of_entries {t t' : Table α} (same : t.entries = t'.entries) : t = t' := by
  obtain ⟨entries, sorted⟩ := t
  obtain ⟨entries', sorted'⟩ := t'
  subst same
  rfl

/-- Entering the entries of a table one by one gives the table. -/
lemma ofList_entries (t : Table α) : ofList t.entries = t :=
  eq_of_entries (entries_insertAll empty t.entries t.sorted)

lemma nodup_keys (t : Table α) : (t.entries.map Prod.fst).Nodup := t.sorted.imp String.ne_of_lt

lemma find?_of_mem_entries {t : Table α} {key : String} {value : α}
    (mem : (key, value) ∈ t.entries) : t.find? key = some value := by
  obtain ⟨value', found⟩ := find?_of_mem_keys (List.mem_map.2 ⟨_, mem, rfl⟩)
  have same := List.inj_on_of_nodup_map t.nodup_keys (mem_entries_of_find? found) mem rfl
  rw [found, (Prod.mk.inj same).2]

/-- A table is what its lookups find. -/
lemma ext_find? {t t' : Table α} (same : ∀ key, t.find? key = t'.find? key) : t = t' := by
  have entries (e : String × α) : e ∈ t.entries ↔ e ∈ t'.entries := by
    constructor
    · intro mem
      exact mem_entries_of_find? ((same e.1).symm.trans (find?_of_mem_entries mem))
    · intro mem
      exact mem_entries_of_find? ((same e.1).trans (find?_of_mem_entries mem))
  have perm : t.entries.Perm t'.entries :=
    (List.perm_ext_iff_of_nodup t.nodup_keys.of_map t'.nodup_keys.of_map).2 entries
  refine eq_of_entries (perm.eq_of_pairwise ?_ (List.pairwise_map.1 t.sorted)
    (List.pairwise_map.1 t'.sorted))
  intro a b _ _ before behind
  exact absurd (String.lt_trans before behind) (String.lt_irrefl a.1)

/-- The first entry that passes a check has the least key of those that do. -/
lemma find?_entries_eq_some_iff {t : Table α} {p : String × α → Bool} {key : String} {value : α} :
    t.entries.find? p = some (key, value) ↔ t.find? key = some value ∧ p (key, value) = true ∧
      ∀ other < key, ∀ value', t.find? other = some value' → p (other, value') = false := by
  have least {key : String} {value : α} (first : t.entries.find? p = some (key, value)) :
      t.find? key = some value ∧ p (key, value) = true ∧
        ∀ other < key, ∀ value', t.find? other = some value' → p (other, value') = false := by
    obtain ⟨passes, before, after, parts, fail⟩ := List.find?_eq_some_iff_append.1 first
    have mem : (key, value) ∈ t.entries := parts ▸ List.mem_append_right _ List.mem_cons_self
    refine ⟨find?_of_mem_entries mem, passes, fun other less value' found => ?_⟩
    have sorted := List.pairwise_map.1 t.sorted
    rw [parts] at sorted
    have behind := (List.pairwise_cons.1 (List.pairwise_append.1 sorted).2.1).1
    rcases List.mem_append.1 (parts ▸ mem_entries_of_find? found) with mem | mem
    · simpa using fail _ mem
    · rcases List.mem_cons.1 mem with same | mem
      · cases same
        exact absurd less (String.lt_irrefl _)
      · exact absurd (String.lt_trans less (behind _ mem)) (String.lt_irrefl _)
  refine ⟨least, fun ⟨found, passes, first⟩ => ?_⟩
  cases search : t.entries.find? p with
  | none =>
    have fails := List.find?_eq_none.1 search _ (mem_entries_of_find? found)
    exact absurd passes fails
  | some entry =>
    obtain ⟨key', value'⟩ := entry
    obtain ⟨found', passes', first'⟩ := least search
    by_cases less : key' < key
    · rw [first key' less value' found'] at passes'
      cases passes'
    · by_cases same : key' = key
      · subst same
        rw [found] at found'
        rw [Option.some.inj found']
      · rw [first' key (lt_of_not_lt_of_ne less same) value found] at passes
        cases passes

end Table

end UpgradeSafety
