import UpgradeSafety.Proofs.Comparison.Cycles

/-!
# Comparisons that report nothing

That types may be exchanged is the least relation closed under the rules, and a
comparison of layouts reports nothing exactly if this relation matches the old
storage with the beginning of the new one.
-/

namespace UpgradeSafety

lemma FieldsMatch.asked {F : Type} [Field F] {related : TypeId → TypeId → Prop} {old new : List F}
    (h : FieldsMatch related old new) {a b : F} (place : (a, b) ∈ old.zip new) :
    related (Field.type a) (Field.type b) :=
  (List.forall₂_iff_zip.1 h).2 place |>.2

/-- A rule accepts its pair on the strength of the pairs that it asks for. -/
lemma Rule.AcceptedBy.asked {allow : Bool} {related compatible : TypeId → TypeId → Prop}
    {rule : Rule} {k k' : TypeId} (accepted : rule.AcceptedBy allow related)
    (asks : rule.Asks compatible k k') : related k k' := by
  cases asks with
  | member place => exact FieldsMatch.asked accepted place
  | key => exact accepted.1
  | value _ => exact accepted.2
  | element => exact accepted

/-- A rule that accepts its pair does so on the strength of the pairs that it asks for. -/
lemma Rule.AcceptedBy.asking {allow : Bool} {related : TypeId → TypeId → Prop} {rule : Rule}
    (accepted : rule.AcceptedBy allow related) :
    rule.AcceptedBy allow fun k k' => related k k' ∧ rule.Asks related k k' := by
  cases rule with
  | compatible => trivial
  | incompatible reason => exact accepted
  | unknownMembers => exact accepted
  | members os ns =>
    refine List.forall₂_iff_zip.2 ⟨List.Forall₂.length_eq accepted, fun place => ?_⟩
    have here := (List.forall₂_iff_zip.1 accepted).2 place
    exact ⟨here.1, here.2, .member place⟩
  | mapping ok nk ov nv => exact ⟨⟨accepted.1, .key⟩, accepted.2, .value accepted.1⟩
  | element oe ne => exact ⟨accepted, .element⟩

namespace Comparison

variable {old new : Layout} {allow : Bool} {path : List TypePair} {label : String} {o n : TypeId}
  {change : Option Change} {related : TypeId → TypeId → Prop}

/-- Types related by a relation that is closed under the rules show no change. -/
lemma no_change_of_related (closed : ∀ {o n}, related o n →
      (Rule.ofTypes old new o n).AcceptedBy allow related)
    (ended : plainTypes old new allow path label o n = .ok change) (here : related o n) :
    change = none := by
  induction path using path_induction old new generalizing label o n change with
  | step path ih =>
    have fresh := not_met_of_ends ended
    rw [plainTypes_fresh fresh] at ended
    refine plainRule_silent (closed here) (fun _ _ _ _ asks inside ended => ?_) ended
    exact ih (o, n) (registered_of_asks asks) fresh ended inside

/-- What is closed under the rules, as far as the types inside may be exchanged, holds of all
types that may be exchanged. -/
lemma Compatible.induction {motive : TypeId → TypeId → Prop}
    (closed : ∀ o n, (Rule.ofTypes old new o n).AcceptedBy allow
      (fun k k' => Compatible old new allow k k' ∧ motive k k') → motive o n)
    (compatible : Compatible old new allow o n) : motive o n := by
  suffices ∀ path label o n, plainTypes old new allow path label o n = .ok none → motive o n from
    this [] "" o n (compatible "")
  intro path
  induction path using path_induction old new with
  | step path ih =>
    intro label o n ended
    have fresh := not_met_of_ends ended
    rw [plainTypes_fresh fresh] at ended
    refine closed o n ((plainRule_accepts ended).asking.mono ?_)
    rintro k k' ⟨⟨label, inside⟩, asks⟩
    exact ⟨compatible_of_ends inside, ih (o, n) (registered_of_asks asks) fresh label k k' inside⟩

/-- Types may be exchanged exactly if their rule accepts them on the strength of such types. -/
lemma compatible_iff : Compatible old new allow o n ↔
    (Rule.ofTypes old new o n).AcceptedBy allow (Compatible old new allow) := by
  constructor
  · intro compatible
    have ended := compatible ""
    rw [plainTypes_fresh List.not_mem_nil] at ended
    exact (plainRule_accepts ended).mono fun _ _ ⟨_, inside⟩ => compatible_of_ends inside
  · intro accepted label
    rw [plainTypes_fresh List.not_mem_nil]
    cases run : plainRule allow (plainTypes old new allow [(o, n)]) label o n
        (Rule.ofTypes old new o n) with
    | ok change =>
      have silent := plainRule_silent accepted (fun _ _ _ _ _ inside => inside.no_change) run
      rw [silent]
    | error cause =>
      -- the pair inside is compared alone without an error, so it must lead back to this one
      obtain ⟨label, k, k', asks, failed⟩ := plainRule_error run
      have leads := leadsTo_of_asks asks
      have alone := accepted.asked asks label
      have ended : plainTypes old new allow [(o, n)] label k k' = .ok none := by
        refine plainTypes_deeper alone fun q passed reached => ?_
        obtain rfl := List.mem_singleton.1 passed
        exact not_cyclic_of_ends (p := (k, k')) alone (.tail' reached leads)
      rw [ended] at failed
      cases failed

/-! ## Reports -/

lemma plainFields_compatible {F : Type} [Field F] {os ns : List F}
    (fields : FieldsMatch (Compatible old new allow) os ns) (ds as : List F) :
    plainFields (plainTypes old new allow []) (os ++ ds) (ns ++ as) =
      plainFields (plainTypes old new allow []) ds as := by
  induction fields with
  | nil => rfl
  | @cons a b os ns here _ ih =>
    have unchanged : fieldOperation a b (none : Option Change) = none := if_pos here.1
    simp only [List.cons_append, plainFields, here.2 _, ih]
    change (plainFields _ ds as >>= fun rest => pure ((fieldOperation a b none).toList ++ rest)) = _
    rw [unchanged]
    exact bind_pure (plainFields _ ds as)

lemma compareLayouts_of_appends {matched added : List StorageItem}
    (parts : new.storage = matched ++ added)
    (fields : FieldsMatch (Compatible old new allow) old.storage matched) :
    compareLayouts old new allow = .ok [] := by
  have run := plainFields_compatible fields [] added
  rw [List.append_nil, ← parts] at run
  rw [compareLayouts_eq_plain, plainDifferences, run]
  refine congrArg Except.ok (List.filter_eq_nil_iff.2 fun op member => ?_)
  obtain ⟨item, -, rfl⟩ := List.mem_map.1 member
  exact Bool.false_ne_true

lemma compareLayouts_of_deletes {matched deleted : List StorageItem}
    (parts : old.storage = matched ++ deleted)
    (fields : FieldsMatch (Compatible old new allow) matched new.storage) :
    compareLayouts old new allow = .ok (deleted.map .delete) := by
  have run := plainFields_compatible fields deleted []
  have ended : plainFields (plainTypes old new allow []) deleted [] =
      .ok (deleted.map .delete) := by cases deleted <;> rfl
  rw [List.append_nil, ← parts, ended] at run
  rw [compareLayouts_eq_plain, plainDifferences, run]
  refine congrArg Except.ok (List.filter_eq_self.2 fun op member => ?_)
  obtain ⟨item, -, rfl⟩ := List.mem_map.1 member
  rfl

/-- Nothing is reported exactly if the old storage matches the beginning of the new one. -/
lemma compareLayouts_silent_iff : compareLayouts old new allow = .ok [] ↔
    ∃ matched added, new.storage = matched ++ added ∧
      FieldsMatch (Compatible old new allow) old.storage matched := by
  constructor
  · intro silent
    rw [compareLayouts_eq_plain] at silent
    obtain ⟨found, fields, none⟩ := plainDifferences_ok silent
    obtain ⟨matched, added, parts, -, fields⟩ := plainFields_accepts fields none.symm
    exact ⟨matched, added, parts, fields.mono fun _ _ ⟨_, ended⟩ => compatible_of_ends ended⟩
  · rintro ⟨matched, added, parts, fields⟩
    exact compareLayouts_of_appends parts fields

end Comparison

end UpgradeSafety
