import Mathlib.Data.Finset.Prod
import UpgradeSafety.Proofs.Comparison.Accepted

/-!
# Comparing without a memory

The plain recursion follows the same rules as a comparator but remembers no
result: a pair of types is compared again wherever it is met. It is handed its
path, the pairs of types that it is inside of, and fails where it meets one of
them once more. It goes further in from pairs of registered types only, so that
it comes to an end without a bound on its depth.
-/

namespace UpgradeSafety

namespace Comparison

/-- A way to find out whether the second type can take the place of the first, without a memory. -/
abbrev PlainComparison := String → TypeId → TypeId → Except Recursion (Option Change)

/-- Compares two sequences of fields position by position. -/
def plainFields {F : Type} [Field F] (types : PlainComparison) :
    List F → List F → Except Recursion (List (Operation F Change))
  | [], new => pure (new.map .append)
  | old, [] => pure (old.map .delete)
  | o :: old, n :: new => do
    let change ← types (Field.label n) (Field.type o) (Field.type n)
    let rest ← plainFields types old new
    pure ((fieldOperation o n change).toList ++ rest)

/-- Applies the rule of a pair, comparing the types inside by `types`. -/
def plainRule (allow : Bool) (types : PlainComparison) (label : String) (o n : TypeId) :
    Rule → Except Recursion (Option Change)
  | .compatible => pure none
  | .incompatible reason => pure (some (.mk o n reason))
  | .unknownMembers => pure (if allow then none else some (.mk o n .missingMembers))
  | .members old new => do
    match ← plainFields types old new with
    | [] => pure none
    | ops => pure (some (.mk o n (.structMembers ops)))
  | .mapping oldKey newKey oldValue newValue => do
    match ← types label oldKey newKey with
    | some _ => pure (some (.mk o n .mappingKey))
    | none =>
      let inner ← types label oldValue newValue
      pure (inner.map fun inner => .mk o n (.mappingValue inner))
  | .element old new => do
    let inner ← types label old new
    pure (inner.map fun inner => .mk o n (.arrayValue inner))

/-- The pairs of types that have an entry on both sides. -/
def registeredPairs (old new : Layout) : Finset TypePair :=
  old.types.keys.toFinset ×ˢ new.types.keys.toFinset

lemma fewer_left {pairs : Finset TypePair} {pair : TypePair} {path : List TypePair}
    (registered : pair ∈ pairs) (fresh : pair ∉ path) :
    (pairs \ (pair :: path).toFinset).card < (pairs \ path.toFinset).card := by
  apply Finset.card_lt_card
  rw [List.toFinset_cons, Finset.ssubset_iff_of_subset]
  · exact ⟨pair, by simp [registered, fresh], by simp⟩
  · exact Finset.sdiff_subset_sdiff subset_rfl (Finset.subset_insert _ _)

/-- Compares two types inside the pairs of `path`. -/
def plainTypes (old new : Layout) (allow : Bool) (path : List TypePair) : PlainComparison :=
  fun label o n =>
    if _met : (o, n) ∈ path then .error ⟨o, n, label⟩
    else if _registered : (o, n) ∈ registeredPairs old new then
      plainRule allow (plainTypes old new allow ((o, n) :: path)) label o n
        (Rule.ofTypes old new o n)
    else
      -- no rule for a pair without an entry asks for types inside, see `plainTypes_fresh`
      plainRule allow (fun _ _ _ => pure none) label o n (Rule.ofTypes old new o n)
termination_by (registeredPairs old new \ path.toFinset).card
decreasing_by exact fewer_left _registered _met

/-- The differences between two layouts, as the plain recursion finds them. -/
def plainDifferences (old new : Layout) (allow : Bool) : Outcome :=
  (plainFields (plainTypes old new allow []) old.storage new.storage).map
    (List.filter fun op => !op.isAppend)

end Comparison

/-! ## What a rule asks for -/

/-- The pairs that a rule compares, the values of mappings only if their keys are compatible. -/
inductive Rule.Asks (compatible : TypeId → TypeId → Prop) : Rule → TypeId → TypeId → Prop where
  | member {os ns : List StructMember} {a b : StructMember} (place : (a, b) ∈ os.zip ns) :
      Asks compatible (.members os ns) a.type b.type
  | key {ok nk ov nv : TypeId} : Asks compatible (.mapping ok nk ov nv) ok nk
  | value {ok nk ov nv : TypeId} (keys : compatible ok nk) :
      Asks compatible (.mapping ok nk ov nv) ov nv
  | element {oe ne : TypeId} : Asks compatible (.element oe ne) oe ne

lemma Rule.Asks.mono {compatible wider : TypeId → TypeId → Prop} {rule : Rule} {k k' : TypeId}
    (asks : rule.Asks compatible k k') (widen : ∀ x y, compatible x y → wider x y) :
    rule.Asks wider k k' := by
  cases asks with
  | member place => exact .member place
  | key => exact .key
  | value keys => exact .value (widen _ _ keys)
  | element => exact .element

namespace Comparison

lemma bind_eq_ok {ε α β : Type} {x : Except ε α} {next : α → Except ε β} {b : β} :
    (x >>= next) = .ok b ↔ ∃ a, x = .ok a ∧ next a = .ok b := by
  cases x with
  | error e =>
    constructor
    · intro h
      cases h
    · rintro ⟨_, h, _⟩
      cases h
  | ok a => exact ⟨fun h => ⟨a, rfl, h⟩, fun ⟨_, h, ends⟩ => Except.ok.inj h ▸ ends⟩

lemma bind_eq_error {ε α β : Type} {x : Except ε α} {next : α → Except ε β} {e : ε} :
    (x >>= next) = .error e ↔ x = .error e ∨ ∃ a, x = .ok a ∧ next a = .error e := by
  cases x with
  | error e' =>
    refine ⟨fun h => .inl ?_, ?_⟩
    · exact congrArg _ (Except.error.inj h)
    · rintro (h | ⟨_, h, _⟩)
      · exact congrArg _ (Except.error.inj h)
      · cases h
  | ok a =>
    refine ⟨fun h => .inr ⟨a, rfl, h⟩, ?_⟩
    rintro (h | ⟨_, h, ends⟩)
    · cases h
    · exact Except.ok.inj h ▸ ends

section Fields

variable {F : Type} [Field F] {types types' : PlainComparison} {os ns : List F}
  {ops : List (Operation F Change)}

lemma plainFields_congr (same : ∀ a b, (a, b) ∈ os.zip ns →
      types (Field.label b) (Field.type a) (Field.type b) =
        types' (Field.label b) (Field.type a) (Field.type b)) :
    plainFields types os ns = plainFields types' os ns := by
  induction os generalizing ns with
  | nil => simp only [plainFields]
  | cons o os ih =>
    cases ns with
    | nil => simp only [plainFields]
    | cons n ns =>
      have rest := ih fun a b place => same a b (List.mem_cons_of_mem _ place)
      simp only [plainFields, same o n List.mem_cons_self, rest]

/-- What the comparison of fields comes to depends on the results for their types only. -/
lemma plainFields_refines (refines : ∀ a b c, (a, b) ∈ os.zip ns →
      types (Field.label b) (Field.type a) (Field.type b) = .ok c →
        types' (Field.label b) (Field.type a) (Field.type b) = .ok c)
    (ended : plainFields types os ns = .ok ops) : plainFields types' os ns = .ok ops := by
  induction os generalizing ns ops with
  | nil => simpa only [plainFields] using ended
  | cons o os ih =>
    cases ns with
    | nil => simpa only [plainFields] using ended
    | cons n ns =>
      simp only [plainFields] at ended ⊢
      obtain ⟨change, first, ended⟩ := bind_eq_ok.1 ended
      obtain ⟨rest, others, ended⟩ := bind_eq_ok.1 ended
      refine bind_eq_ok.2 ⟨change, refines o n _ List.mem_cons_self first, ?_⟩
      refine bind_eq_ok.2 ⟨rest, ?_, ended⟩
      exact ih (fun a b c place => refines a b c (List.mem_cons_of_mem _ place)) others

/-- Where a comparison of fields comes to an end, so does that of every pair of their types. -/
lemma plainFields_asked (ended : plainFields types os ns = .ok ops) {a b : F}
    (place : (a, b) ∈ os.zip ns) :
    ∃ c, types (Field.label b) (Field.type a) (Field.type b) = .ok c := by
  induction os generalizing ns ops with
  | nil => cases place
  | cons o os ih =>
    cases ns with
    | nil => cases place
    | cons n ns =>
      simp only [plainFields] at ended
      obtain ⟨change, first, ended⟩ := bind_eq_ok.1 ended
      obtain ⟨rest, others, -⟩ := bind_eq_ok.1 ended
      rcases List.mem_cons.1 place with here | place
      · obtain ⟨rfl, rfl⟩ := Prod.mk.inj here
        exact ⟨change, first⟩
      · exact ih others place

lemma plainFields_error {cause : Recursion} (failed : plainFields types os ns = .error cause) :
    ∃ a b, (a, b) ∈ os.zip ns ∧
      types (Field.label b) (Field.type a) (Field.type b) = .error cause := by
  induction os generalizing ns with
  | nil => simp only [plainFields] at failed; cases failed
  | cons o os ih =>
    cases ns with
    | nil => simp only [plainFields] at failed; cases failed
    | cons n ns =>
      simp only [plainFields] at failed
      rcases bind_eq_error.1 failed with first | ⟨_, -, failed⟩
      · exact ⟨o, n, List.mem_cons_self, first⟩
      · rcases bind_eq_error.1 failed with others | ⟨_, -, impossible⟩
        · obtain ⟨a, b, place, at_⟩ := ih others
          exact ⟨a, b, List.mem_cons_of_mem _ place, at_⟩
        · cases impossible

/-- Where only additions are found, the old fields match the first of the new ones. -/
lemma plainFields_accepts (ended : plainFields types os ns = .ok ops)
    (silent : ops.filter (fun op => !op.isAppend) = []) :
    ∃ matched added, ns = matched ++ added ∧ ops = added.map .append ∧
      FieldsMatch (fun k k' => ∃ label, types label k k' = .ok none) os matched := by
  induction os generalizing ns ops with
  | nil =>
    simp only [plainFields] at ended
    exact ⟨[], ns, rfl, (Except.ok.inj ended).symm, .nil⟩
  | cons o os ih =>
    cases ns with
    | nil =>
      simp only [plainFields] at ended
      obtain rfl := Except.ok.inj ended
      simp [Operation.isAppend] at silent
    | cons n ns =>
      simp only [plainFields] at ended
      obtain ⟨change, first, ended⟩ := bind_eq_ok.1 ended
      obtain ⟨rest, others, ended⟩ := bind_eq_ok.1 ended
      obtain rfl := Except.ok.inj ended
      rw [List.filter_append, List.append_eq_nil_iff] at silent
      cases difference : fieldOperation o n change with
      | some op => simp [difference, fieldOperation_append difference] at silent
      | none =>
        obtain ⟨rfl, label⟩ := fieldOperation_none difference
        obtain ⟨matched, added, rfl, rfl, fields⟩ := ih others silent.2
        exact ⟨n :: matched, added, rfl, rfl, .cons ⟨label, _, first⟩ fields⟩

/-- Fields that match add nothing to what is found behind them. -/
lemma plainFields_matching {related : TypeId → TypeId → Prop} {ds as : List F}
    (fields : FieldsMatch related os ns)
    (silent : ∀ a b c, (a, b) ∈ os.zip ns → related (Field.type a) (Field.type b) →
      types (Field.label b) (Field.type a) (Field.type b) = .ok c → c = none)
    (ended : plainFields types (os ++ ds) (ns ++ as) = .ok ops) :
    plainFields types ds as = .ok ops := by
  induction fields generalizing ops with
  | nil => exact ended
  | cons here _ ih =>
    simp only [List.cons_append, plainFields] at ended
    obtain ⟨change, first, ended⟩ := bind_eq_ok.1 ended
    obtain ⟨rest, others, ended⟩ := bind_eq_ok.1 ended
    obtain rfl := silent _ _ _ List.mem_cons_self here.2 first
    obtain rfl := Except.ok.inj ended
    have behind := ih (fun a b c place => silent a b c (List.mem_cons_of_mem _ place)) others
    simpa [fieldOperation, here.1] using behind

end Fields

section Rules

variable {types types' : PlainComparison} {allow : Bool} {label : String} {o n k k' : TypeId}
  {rule : Rule} {change : Option Change} {compatible related : TypeId → TypeId → Prop}

lemma plainRule_congr (same : ∀ label k k', rule.Asks (fun _ _ => True) k k' →
      types label k k' = types' label k k') :
    plainRule allow types label o n rule = plainRule allow types' label o n rule := by
  cases rule with
  | compatible => rfl
  | incompatible reason => rfl
  | unknownMembers => rfl
  | members os ns =>
    have fields : plainFields types os ns = plainFields types' os ns :=
      plainFields_congr fun a b place => same _ _ _ (.member place)
    simp only [plainRule, fields]
  | mapping ok nk ov nv => simp only [plainRule, same _ _ _ .key, same _ _ _ (.value trivial)]
  | element oe ne => simp only [plainRule, same _ _ _ .element]

/-- What a rule comes to depends on the results for the types it asks for only, and on no label. -/
lemma plainRule_refines {label' : String} (refines : ∀ label label' k k' c,
      rule.Asks (fun x y => ∃ label, types label x y = .ok none) k k' →
        types label k k' = .ok c → types' label' k k' = .ok c)
    (ended : plainRule allow types label o n rule = .ok change) :
    plainRule allow types' label' o n rule = .ok change := by
  cases rule with
  | compatible => exact ended
  | incompatible reason => exact ended
  | unknownMembers => exact ended
  | members os ns =>
    simp only [plainRule] at ended ⊢
    obtain ⟨ops, fields, ended⟩ := bind_eq_ok.1 ended
    refine bind_eq_ok.2 ⟨ops, ?_, ended⟩
    exact plainFields_refines (fun a b c place => refines _ _ _ _ c (.member place)) fields
  | mapping ok nk ov nv =>
    simp only [plainRule] at ended ⊢
    obtain ⟨keys, first, ended⟩ := bind_eq_ok.1 ended
    refine bind_eq_ok.2 ⟨keys, refines _ _ _ _ _ .key first, ?_⟩
    cases keys with
    | some _ => exact ended
    | none =>
      obtain ⟨inner, values, ended⟩ := bind_eq_ok.1 ended
      exact bind_eq_ok.2 ⟨inner, refines _ _ _ _ _ (.value ⟨_, first⟩) values, ended⟩
  | element oe ne =>
    simp only [plainRule] at ended ⊢
    obtain ⟨inner, elements, ended⟩ := bind_eq_ok.1 ended
    exact bind_eq_ok.2 ⟨inner, refines _ _ _ _ _ .element elements, ended⟩

/-- Where a rule comes to an end, so do the comparisons it asks for. -/
lemma plainRule_asked (ended : plainRule allow types label o n rule = .ok change)
    (asks : rule.Asks compatible k k')
    (agree : ∀ label x y c, compatible x y → types label x y = .ok c → c = none) :
    ∃ label c, types label k k' = .ok c := by
  cases asks with
  | member place =>
    obtain ⟨ops, fields, -⟩ := bind_eq_ok.1 ended
    exact ⟨_, plainFields_asked fields place⟩
  | key =>
    obtain ⟨keys, first, -⟩ := bind_eq_ok.1 ended
    exact ⟨_, keys, first⟩
  | value compatible =>
    obtain ⟨keys, first, ended⟩ := bind_eq_ok.1 ended
    obtain rfl := agree _ _ _ _ compatible first
    obtain ⟨inner, values, -⟩ := bind_eq_ok.1 ended
    exact ⟨_, inner, values⟩
  | element =>
    obtain ⟨inner, elements, -⟩ := bind_eq_ok.1 ended
    exact ⟨_, inner, elements⟩

/-- Where a rule fails, it fails for a pair of types that it asks for. -/
lemma plainRule_error {cause : Recursion}
    (failed : plainRule allow types label o n rule = .error cause) :
    ∃ label k k', rule.Asks (fun x y => ∃ label, types label x y = .ok none) k k' ∧
      types label k k' = .error cause := by
  cases rule with
  | compatible => cases failed
  | incompatible reason => cases failed
  | unknownMembers => cases failed
  | members os ns =>
    rcases bind_eq_error.1 failed with fields | ⟨ops, -, impossible⟩
    · obtain ⟨a, b, place, inside⟩ := plainFields_error fields
      exact ⟨_, _, _, .member place, inside⟩
    · cases ops <;> cases impossible
  | mapping ok nk ov nv =>
    rcases bind_eq_error.1 failed with keys | ⟨keys, first, failed⟩
    · exact ⟨_, _, _, .key, keys⟩
    · cases keys with
      | some _ => cases failed
      | none =>
        rcases bind_eq_error.1 failed with values | ⟨_, -, impossible⟩
        · exact ⟨_, _, _, .value ⟨_, first⟩, values⟩
        · cases impossible
  | element oe ne =>
    rcases bind_eq_error.1 failed with elements | ⟨_, -, impossible⟩
    · exact ⟨_, _, _, .element, elements⟩
    · cases impossible

/-- A rule that comes to no change accepts its pair. -/
lemma plainRule_accepts (ended : plainRule allow types label o n rule = .ok none) :
    rule.AcceptedBy allow fun x y => ∃ label, types label x y = .ok none := by
  cases rule with
  | compatible => trivial
  | incompatible reason => cases ended
  | unknownMembers =>
    cases allow with
    | false => cases ended
    | true => rfl
  | members os ns =>
    obtain ⟨ops, fields, ended⟩ := bind_eq_ok.1 ended
    cases ops with
    | cons op ops => cases ended
    | nil =>
      obtain ⟨matched, added, rfl, appends, matching⟩ := plainFields_accepts fields rfl
      have none : added = [] := List.map_eq_nil_iff.1 appends.symm
      rw [none, List.append_nil]
      exact matching
  | mapping ok nk ov nv =>
    obtain ⟨keys, first, ended⟩ := bind_eq_ok.1 ended
    cases keys with
    | some _ => cases ended
    | none =>
      obtain ⟨inner, values, ended⟩ := bind_eq_ok.1 ended
      obtain rfl := Option.map_eq_none_iff.1 (Except.ok.inj ended)
      exact ⟨⟨_, first⟩, _, values⟩
  | element oe ne =>
    obtain ⟨inner, elements, ended⟩ := bind_eq_ok.1 ended
    obtain rfl := Option.map_eq_none_iff.1 (Except.ok.inj ended)
    exact ⟨_, elements⟩

/-- A rule that accepts its pair comes to no change, if it comes to an end. -/
lemma plainRule_silent (accepted : rule.AcceptedBy allow related)
    (silent : ∀ label k k' c, rule.Asks related k k' → related k k' →
      types label k k' = .ok c → c = none)
    (ended : plainRule allow types label o n rule = .ok change) : change = none := by
  cases rule with
  | compatible => exact (Except.ok.inj ended).symm
  | incompatible reason => exact accepted.elim
  | unknownMembers =>
    obtain rfl : allow = true := accepted
    exact (Except.ok.inj ended).symm
  | members os ns =>
    obtain ⟨ops, fields, ended⟩ := bind_eq_ok.1 ended
    rw [← List.append_nil os, ← List.append_nil ns] at fields
    have none : .ok [] = Except.ok ops :=
      plainFields_matching accepted (fun _ _ c place => silent _ _ _ c (.member place)) fields
    obtain rfl := Except.ok.inj none
    exact (Except.ok.inj ended).symm
  | mapping ok nk ov nv =>
    obtain ⟨keys, first, ended⟩ := bind_eq_ok.1 ended
    obtain rfl := silent _ _ _ _ .key accepted.1 first
    obtain ⟨inner, values, ended⟩ := bind_eq_ok.1 ended
    obtain rfl := silent _ _ _ _ (.value accepted.1) accepted.2 values
    exact (Except.ok.inj ended).symm
  | element oe ne =>
    obtain ⟨inner, elements, ended⟩ := bind_eq_ok.1 ended
    obtain rfl := silent _ _ _ _ .element accepted elements
    exact (Except.ok.inj ended).symm

end Rules

end Comparison

end UpgradeSafety
