import UpgradeSafety.Proofs.Comparison.EditScripts
import UpgradeSafety.Proofs.Comparison.Kinds
import UpgradeSafety.Proofs.Comparison.Memory

/-!
# Members of enums

Between enums with known members a comparator goes no further in: it reports a change of
width or else the edits that change what a stored index means. So it lets one enum take
the place of another exactly if the members of the old one begin those of the new one and
both have the same width, as long as no new member is repeated.
-/

namespace UpgradeSafety

/-- The rule for two enums settles the pair. -/
lemma Rule.enums_settles (os ns : List String) :
    enums os ns = .compatible ∨ ∃ reason, enums os ns = .incompatible reason := by
  rw [enums]
  split
  · split
    · exact .inl rfl
    · exact .inr ⟨_, rfl⟩
  · exact .inr ⟨_, rfl⟩

namespace Comparison

variable {old new : Layout} {allow : Bool} {path : List TypePair} {m : Memory} {o n : TypeId}
  {os ns : List String}

/-- What a comparison of two enums comes to, with a memory and without, whatever the field is
and whatever compares the types further in. -/
lemma enums_answer (allow : Bool) (o n : TypeId) (os ns : List String) :
    ∃ change,
      (∀ inside label, followRule allow inside label o n (Rule.enums os ns) = pure change) ∧
      (∀ inside label, plainRule allow inside label o n (Rule.enums os ns) = .ok change) ∧
      (change = none ↔ (Rule.enums os ns).AcceptedBy allow fun _ _ => True) := by
  rcases Rule.enums_settles os ns with rule | ⟨reason, rule⟩
  · rw [rule]
    exact ⟨none, fun _ _ => rfl, fun _ _ => rfl, iff_of_true rfl trivial⟩
  · rw [rule]
    exact ⟨some (.mk o n reason), fun _ _ => rfl, fun _ _ => rfl, iff_of_false nofun id⟩

lemma types_succ (old new : Layout) (allow : Bool) (fuel : Nat) :
    types old new allow (fuel + 1) = level old new allow (types old new allow fuel) := by
  rw [types_eq_levels old new allow (fuel + 1), Function.iterate_succ_apply', ← types_eq_levels]

/-- A comparator that is not inside the pair already answers by the rule, whether it remembers
the pair or compares it now. -/
lemma types_enums (oldKind : old.kind? o = some (.enum (some os)))
    (newKind : new.kind? n = some (.enum (some ns))) (outside : (o, n) ∉ path) (fuel : Nat)
    (label : String) : ∃ change,
      Runs old new allow path (types old new allow (fuel + 1) label o n) (.ok change) ∧
        (change = none ↔ (Rule.enums os ns).AcceptedBy allow fun _ _ => True) := by
  have rule : Rule.ofTypes old new o n = Rule.enums os ns := by
    rw [Rule.ofTypes, oldKind, newKind]
    rfl
  obtain ⟨change, compared, plainly, accepted⟩ := enums_answer allow o n os ns
  have alone : ∀ label, plainTypes old new allow [] label o n = .ok change := by
    intro label
    rw [plainTypes_fresh List.not_mem_nil, rule, plainly]
  refine ⟨change, ?_, accepted⟩
  rw [types_succ]
  refine runs_get fun m faithful => ?_
  cases found : m.results.lookup (o, n) with
  | some remembered =>
    obtain ⟨_, _, parts, _⟩ := List.lookup_eq_some_iff.1 found
    have ended := faithful.results (o, n) remembered (by simp [parts]) label
    obtain rfl : change = remembered := Except.ok.inj ((alone label).symm.trans ended)
    exact runs_pure change
  | none =>
    simp only [List.contains_iff_mem, faithful.inProgress, outside, if_false, rule, compared]
    refine runs_bind (runs_whileComparing (runs_pure change)) fun answer same => ?_
    obtain rfl : change = answer := Except.ok.inj same
    exact runs_bind (runs_remember alone) fun _ _ => runs_pure change

/--
The edits between the members of two enums are missing only if the old members begin the new
ones, and they are missing then if no new member is repeated. So a comparator that is not inside
the pair already answers whether one enum may take the place of the other, whatever it remembers
and however deep it is: it accepts the pair exactly if the old members begin the new ones and
both enums have the same number of bytes.
-/
theorem enum_edits_tell_broken_order (os ns : List String) :
    (enumEdits os ns = [] → os <+: ns) ∧
      (os <+: ns → ns.Nodup → enumEdits os ns = []) ∧
      (ns.Nodup → ∀ (old new : Layout) (o n : TypeId),
        old.kind? o = some (.enum (some os)) → new.kind? n = some (.enum (some ns)) →
        ∀ (allow : Bool) (path : List TypePair) (m : Memory), Faithful old new allow path m →
        (o, n) ∉ path → ∀ (fuel : Nat) (label : String), ∃ change,
          (types old new allow (fuel + 1) label o n m).1 = .ok change ∧
            (change = none ↔ os <+: ns ∧
              Footprint.enumBytes os.length = Footprint.enumBytes ns.length)) := by
  refine ⟨isPrefix_of_enumEdits, enumEdits_eq_nil, ?_⟩
  intro distinct old new o n oldKind newKind allow path m faithful outside fuel label
  obtain ⟨change, runs, accepted⟩ := types_enums oldKind newKind outside fuel label
  refine ⟨change, (runs m faithful).1, accepted.trans ?_⟩
  rw [Rule.enums_accepted_iff]
  constructor
  · rintro ⟨width, none⟩
    exact ⟨isPrefix_of_enumEdits none, width⟩
  · rintro ⟨begins, width⟩
    exact ⟨width, enumEdits_eq_nil begins distinct⟩

/-- An auction that has a variable for its state. -/
def auctionOf (states : List String) : Layout :=
  ⟨[⟨"Auction", "state", "t_enum(State)", 0, 0, none, none⟩],
   Table.ofList [("t_enum(State)", ⟨"enum State", 1, .enum (some states)⟩)]⟩

/-- A state behind the others is no edit, and a comparator that was asked before accepts it. -/
theorem added_state_is_accepted :
    enumEdits ["open", "closed"] ["open", "closed", "paid"] = [] ∧
      (types (auctionOf ["open", "closed"]) (auctionOf ["open", "closed", "paid"]) false 2 "state"
        "t_enum(State)" "t_enum(State)" (Comparator.afterRuns (auctionOf ["open", "closed"])
          (auctionOf ["open", "closed", "paid"]) false 1).memory).1 = .ok none := by
  have begins : ["open", "closed"] <+: ["open", "closed", "paid"] := ⟨["paid"], rfl⟩
  have distinct : ["open", "closed", "paid"].Nodup := by decide
  obtain ⟨-, unedited, answers⟩ :=
    enum_edits_tell_broken_order ["open", "closed"] ["open", "closed", "paid"]
  obtain ⟨m, faithful, reached⟩ := afterRuns_faithful (auctionOf ["open", "closed"])
    (auctionOf ["open", "closed", "paid"]) false 1
  obtain ⟨change, ended, accepted⟩ := answers distinct _ _ "t_enum(State)" "t_enum(State)"
    (by decide +kernel) (by decide +kernel) false [] m faithful List.not_mem_nil 1 "state"
  obtain rfl := accepted.2 ⟨begins, by decide +kernel⟩
  rw [reached]
  exact ⟨unedited begins distinct, ended⟩

/-- A repeated member may be matched with the later one, so that the first one was inserted. -/
example : enumEdits ["open"] ["open", "open"] = [.insert "open"] := by decide

end Comparison

end UpgradeSafety
