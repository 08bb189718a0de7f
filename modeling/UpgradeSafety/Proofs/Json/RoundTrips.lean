import UpgradeSafety.Json.Document
import UpgradeSafety.Proofs.Json.ReadBack
import UpgradeSafety.Proofs.Tables

/-!
# Parts of documents that read back

What a list, a table or a number is written as is read as the same list, table or
number, if that holds of each part. A document is plain and as shallow as its
parts allow, and it repeats no key as long as no object in it does.
-/

namespace UpgradeSafety

namespace Json

variable {α : Type} {write : α → Json} {read : Json → Option α}

/-! ## Lists and tables -/

lemma mapM_map_some {β : Type} {write : α → β} {read : β → Option α} {as : List α}
    (each : ∀ a ∈ as, read (write a) = some a) : (as.map write).mapM read = some as := by
  induction as with
  | nil => rfl
  | cons a as ih =>
    have rest := ih fun b member => each b (List.mem_cons_of_mem _ member)
    simp [each a List.mem_cons_self, rest]

lemma asList?_map {as : List α} (each : ∀ a ∈ as, read (write a) = some a) :
    asList? read (.array (as.map write)) = some as := mapM_map_some each

lemma asTable?_ofTable {t : Table α} (each : ∀ a ∈ t.values, read (write a) = some a) :
    asTable? read (ofTable write t) = some t := by
  have entries : (t.entries.map fun e => (e.1, write e.2)).mapM
      (fun e => (read e.2).map (e.1, ·)) = some t.entries :=
    mapM_map_some fun e entered => by
      rw [each e.2 (List.mem_map_of_mem entered), Option.map_some]
  change ((t.entries.map fun e => (e.1, write e.2)).mapM
    (fun e => (read e.2).map (e.1, ·))).bind (fun entries => some (Table.ofList entries)) = some t
  rw [entries, Option.bind_some, Table.ofList_entries]

lemma asNullable?_orNull {x : Option α} (notNull : ∀ a ∈ x, write a ≠ .null)
    (each : ∀ a ∈ x, read (write a) = some a) : asNullable? read (orNull write x) = some x := by
  cases x with
  | none => rfl
  | some a =>
    have here := each a rfl
    have notNull := notNull a rfl
    rw [orNull, asNullable?.eq_def]
    simp_all

@[simp] lemma asNullable?_orNull_string (x : Option String) :
    asNullable? asString? (orNull .string x) = some x :=
  asNullable?_orNull (fun _ _ => Json.noConfusion) fun _ _ => rfl

/-! ## Numbers -/

lemma asWord?_ofWord {n : Nat} (fits : n < Numeral.bound256) : asWord? (ofWord n) = some n := by
  change Numeral.read? Numeral.bound256 (String.ofList (Numeral.digits n)).toList = some n
  rw [String.toList_ofList, Numeral.read?_digits fits]

lemma asNatural?_natural {n bound : Nat} (fits : n < bound) :
    asNatural? bound (natural n) = some n := by
  have inside : (0 : Int) ≤ n ∧ (n : Int) < bound := by omega
  rw [natural, asNatural?, asInteger?, if_pos inside, Option.map_some, Int.toNat_natCast]

/-! ## Distinct keys -/

lemma itemsSettled_eq_self_iff {items : List Json} :
    itemsSettled items = items ↔ ∀ item ∈ items, item.settled = item := by
  induction items with
  | nil => simp [itemsSettled]
  | cons item rest ih => simp [itemsSettled, ih]

lemma lookup_member (key k : String) (j : Json) (ms : Members) :
    ((k, j) :: ms).lookup key = if key = k then some j else ms.lookup key := by
  by_cases same : key = k
  · simp [same]
  · rw [if_neg same, List.lookup_cons, beq_eq_false_iff_ne.2 same]

lemma lookup_eq_none_iff {key : String} {ms : Members} :
    ms.lookup key = none ↔ key ∉ ms.map Prod.fst := by
  induction ms with
  | nil => simp
  | cons m rest ih =>
    obtain ⟨k, j⟩ := m
    rw [lookup_member, List.map_cons, List.mem_cons, not_or, ← ih]
    split <;> simp_all

/-- Of several members with one key the last one counts. -/
theorem lookup_membersSettled (key : String) (ms : Members) :
    (membersSettled ms).lookup key = (ms.reverse.lookup key).map settled := by
  induction ms with
  | nil => rfl
  | cons m rest ih =>
    obtain ⟨k, j⟩ := m
    rw [membersSettled, List.reverse_cons, List.lookup_append]
    split
    · next repeated =>
      cases found : rest.reverse.lookup key with
      | some later => rw [ih, found, Option.some_or]
      | none =>
        have absent : key ∉ rest.map Prod.fst := by
          simpa using lookup_eq_none_iff.1 found
        have differ : key ≠ k := fun same => absent (same ▸ repeated)
        rw [ih, found, Option.none_or, lookup_member, if_neg differ, List.lookup_nil]
    · next last =>
      rw [lookup_member, lookup_member, ih]
      by_cases same : key = k
      · have absent : rest.reverse.lookup key = none := by
          rw [lookup_eq_none_iff, same]
          simpa using last
        rw [if_pos same, if_pos same, absent, Option.none_or, Option.map_some]
      · rw [if_neg same, if_neg same, List.lookup_nil, Option.or_none]

lemma length_membersSettled_le (members : Members) :
    (membersSettled members).length ≤ members.length := by
  induction members with
  | nil => exact Nat.le_refl _
  | cons m rest ih =>
    obtain ⟨key, j⟩ := m
    rw [membersSettled]
    split
    · exact Nat.le_succ_of_le ih
    · exact Nat.succ_le_succ ih

lemma membersSettled_eq_self_iff {members : Members} :
    membersSettled members = members ↔
      (members.map Prod.fst).Nodup ∧ ∀ m ∈ members, m.2.settled = m.2 := by
  induction members with
  | nil => simp [membersSettled]
  | cons m rest ih =>
    obtain ⟨key, j⟩ := m
    rw [membersSettled]
    split
    · next repeated =>
      have shorter : membersSettled rest ≠ (key, j) :: rest := fun same => by
        have atMost := length_membersSettled_le rest
        rw [same] at atMost
        exact Nat.not_succ_le_self _ atMost
      exact iff_of_false shorter fun distinct => (List.nodup_cons.1 distinct.1).1 repeated
    · next last =>
      rw [List.cons.injEq, ih, List.map_cons, List.nodup_cons, List.forall_mem_cons, Prod.mk.injEq]
      tauto

/-! ## Plain and shallow documents -/

@[simp] lemma isPlain_string (text : String) : (string text).isPlain = true := rfl

@[simp] lemma isPlain_null : null.isPlain = true := rfl

@[simp] lemma isPlain_bool (b : Bool) : (bool b).isPlain = true := rfl

@[simp] lemma isPlain_array {items : List Json} :
    (array items).isPlain = true ↔ ∀ item ∈ items, item.isPlain = true := itemsPlain_iff

@[simp] lemma isPlain_object {members : Members} :
    (object members).isPlain = true ↔ ∀ m ∈ members, m.2.isPlain = true := membersPlain_iff

lemma isPlain_integer {n : Int} (above : -Int.ofNat Numeral.bound63 ≤ n)
    (below : n < Int.ofNat Numeral.bound64) : (integer n).isPlain = true := by
  simp only [isPlain, isInteger, above, below, decide_true, Bool.and_self]

lemma isPlain_natural {n : Nat} (fits : n < Numeral.bound64) : (natural n).isPlain = true := by
  have above : -Int.ofNat Numeral.bound63 ≤ (n : Int) :=
    Int.le_trans (Int.neg_nonpos_of_nonneg (Int.natCast_nonneg _)) (Int.natCast_nonneg n)
  have below : (n : Int) < Int.ofNat Numeral.bound64 := Int.ofNat_lt.2 fits
  exact isPlain_integer above below

@[simp] lemma isPlain_orNull {x : Option α} :
    (orNull write x).isPlain = true ↔ ∀ a ∈ x, (write a).isPlain = true := by
  cases x <;> simp [orNull]

@[simp] lemma isPlain_ofTable {t : Table α} :
    (ofTable write t).isPlain = true ↔ ∀ a ∈ t.values, (write a).isPlain = true := by
  rw [ofTable, isPlain_object, List.forall_mem_map, Table.values, List.forall_mem_map]

/--
Plain, with at most `limit` arrays and objects inside one another, and without two members of
one key.
-/
@[mk_iff]
structure Small (limit : Nat) (j : Json) : Prop where
  plain : j.isPlain = true
  shallow : j.depth ≤ limit
  distinct : j.settled = j

section

variable {limit : Nat}

lemma Small.mono {j : Json} {limit' : Nat} (small : j.Small limit) (more : limit ≤ limit') :
    j.Small limit' := ⟨small.plain, Nat.le_trans small.shallow more, small.distinct⟩

@[simp] lemma small_null : Small limit null := ⟨rfl, Nat.zero_le _, rfl⟩

@[simp] lemma small_string (text : String) : Small limit (string text) := ⟨rfl, Nat.zero_le _, rfl⟩

@[simp] lemma small_ofWord (n : Nat) : Small limit (ofWord n) := ⟨rfl, Nat.zero_le _, rfl⟩

lemma small_natural {n : Nat} (fits : n < Numeral.bound64) : Small limit (natural n) :=
  ⟨isPlain_natural fits, Nat.zero_le _, rfl⟩

@[simp] lemma small_array {items : List Json} :
    Small (limit + 1) (array items) ↔ ∀ item ∈ items, Small limit item := by
  simp only [small_iff, isPlain_array, depth, Nat.add_le_add_iff_right, depthOfItems_le_iff,
    settled, array.injEq, itemsSettled_eq_self_iff, forall_and]

@[simp] lemma small_object {members : Members} :
    Small (limit + 1) (object members) ↔
      (members.map Prod.fst).Nodup ∧ ∀ m ∈ members, Small limit m.2 := by
  simp only [small_iff, isPlain_object, depth, Nat.add_le_add_iff_right, depthOfMembers_le_iff,
    settled, object.injEq, membersSettled_eq_self_iff, forall_and]
  tauto

@[simp] lemma small_strings (texts : List String) : Small (limit + 1) (strings texts) := by
  simp [strings]

lemma small_orNull {x : Option α} :
    Small limit (orNull write x) ↔ ∀ a ∈ x, Small limit (write a) := by
  cases x <;> simp [orNull]

@[simp] lemma small_ofTable {t : Table α} :
    Small (limit + 1) (ofTable write t) ↔ ∀ a ∈ t.values, Small limit (write a) := by
  have keys : ((t.entries.map fun e => (e.1, write e.2)).map Prod.fst).Nodup := by
    rw [List.map_map]
    exact t.nodup_keys
  rw [ofTable, small_object, List.forall_mem_map, Table.values, List.forall_mem_map]
  exact and_iff_right keys

end

/-! ## Members of objects -/

section

variable (read) (key k : String) (j : Json) (ms : Members)

lemma field?_cons :
    field? key ((k, j) :: ms) =
      if key = k then if key ∈ ms.map Prod.fst then none else some (some j)
      else field? key ms := by
  rw [field?, lookup_member, List.map_cons]
  by_cases same : key = k
  · subst same
    have once : (ms.map Prod.fst).count key + 1 ≤ 1 ↔ key ∉ ms.map Prod.fst := by
      rw [← List.count_eq_zero]
      omega
    simp only [List.count_cons_self, once, if_true, ite_not]
  · rw [if_neg same, if_neg same, List.count_cons_of_ne (Ne.symm same), field?]

@[simp] lemma required_cons :
    required read key ((k, j) :: ms) =
      if key = k then if key ∈ ms.map Prod.fst then none else read j
      else required read key ms := by
  rw [required, field?_cons]
  split
  · split <;> rfl
  · rfl

@[simp] lemma optional_nil : Json.optional read key [] = some none := rfl

@[simp] lemma optional_cons :
    Json.optional read key ((k, j) :: ms) =
      if key = k then if key ∈ ms.map Prod.fst then none else asNullable? read j
      else Json.optional read key ms := by
  rw [Json.optional, field?_cons]
  split
  · split <;> rfl
  · rfl

@[simp] lemma defaulted_cons (default : α) :
    defaulted default read key ((k, j) :: ms) =
      if key = k then if key ∈ ms.map Prod.fst then none else read j
      else defaulted default read key ms := by
  rw [defaulted, field?_cons]
  split
  · split <;> rfl
  · rfl

end

/-! ## Records -/

/--
Reading an object goes on with its members. As an equation that holds by definition
the step would be left to the kernel, which then looks up every key.
-/
@[simp] lemma asObject?_bind {β : Type} (ms : Members) (next : Members → Option β) :
    (object ms).asObject?.bind next = next ms := by
  have members : (object ms).asObject? = some ms := rfl
  rw [members, Option.bind_some]

@[simp] lemma asRecord?_bind {β : Type} (fields : List String) (ms : Members)
    (next : Members → Option β) : ((object ms).asRecord? fields).bind next = next ms := by
  have members : (object ms).asRecord? fields = some ms := rfl
  rw [members, Option.bind_some]

lemma tagged?_object {key : String} {kind : Json} {ms : Members} (once : key ∉ ms.map Prod.fst) :
    tagged? key (object ((key, kind) :: ms)) = some (kind, object ((key, kind) :: ms)) := by
  rw [tagged?, field?_cons, if_pos rfl, if_neg once]
  rfl

@[simp] lemma asString?_string (text : String) : (string text).asString? = some text := rfl

@[simp] lemma asKeywordOrPosition?_string (words : List String) (word : String) :
    (string word).asKeywordOrPosition? words = some word := rfl

@[simp] lemma asBool?_bool (b : Bool) : (bool b).asBool? = some b := rfl

@[simp] lemma asNullable?_string (text : String) :
    asNullable? read (string text) = (read (string text)).map some := rfl

@[simp] lemma asNullable?_object (ms : Members) :
    asNullable? read (object ms) = (read (object ms)).map some := rfl

@[simp] lemma asNullable?_array (items : List Json) :
    asNullable? read (array items) = (read (array items)).map some := rfl

@[simp] lemma asNullable?_strings (texts : List String) :
    asNullable? read (strings texts) = (read (strings texts)).map some := rfl

@[simp] lemma asList?_strings (texts : List String) :
    asList? asString? (strings texts) = some texts := asList?_map fun _ _ => rfl

end Json

end UpgradeSafety
