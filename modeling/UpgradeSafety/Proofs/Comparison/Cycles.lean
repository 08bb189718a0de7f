import UpgradeSafety.Proofs.Comparison.Memory

/-!
# Comparisons that meet a cycle

A comparison fails exactly if a cycle of the graph of compared pairs is reached
from the storage, and then it names a pair on such a cycle. The bound on the depth
of a comparator is never used up: written out as many levels deep, its comparison
does not depend on what happens further in.
-/

namespace UpgradeSafety

/-- What a comparator finds if its comparison of types is written out some levels deep and
whatever lies further in is left to `further`. -/
def Comparator.unrolled (c : Comparator) (levels : Nat) (further : Comparison.TypeComparison) :
    Comparison.Outcome :=
  (Comparison.fields ((Comparison.level c.old c.new c.allowUnknown)^[levels] further)
    c.old.storage c.new.storage c.memory).1.map (List.filter fun op => !op.isAppend)

namespace Comparison

open Relation (ReflTransGen TransGen)

/-- A pair of types is reached from the types at a position that both storages have. -/
def Reached (old new : Layout) (allow : Bool) (p : TypePair) : Prop :=
  ∃ a b, (a, b) ∈ old.storage.zip new.storage ∧
    ReflTransGen (LeadsTo old new allow) (a.type, b.type) p

variable {old new : Layout} {allow : Bool} {p q : TypePair}

lemma Reached.trans (reached : Reached old new allow p)
    (further : ReflTransGen (LeadsTo old new allow) p q) : Reached old new allow q :=
  let ⟨a, b, place, start⟩ := reached
  ⟨a, b, place, start.trans further⟩

lemma plainDifferences_ok {ops : List ItemOperation}
    (ended : plainDifferences old new allow = .ok ops) :
    ∃ found, plainFields (plainTypes old new allow []) old.storage new.storage = .ok found ∧
      ops = found.filter fun op => !op.isAppend := by
  rw [plainDifferences] at ended
  cases run : plainFields (plainTypes old new allow []) old.storage new.storage with
  | error cause => rw [run] at ended; cases ended
  | ok found =>
    rw [run] at ended
    exact ⟨found, rfl, (Except.ok.inj ended).symm⟩

lemma plainDifferences_error {cause : Recursion}
    (failed : plainDifferences old new allow = .error cause) :
    plainFields (plainTypes old new allow []) old.storage new.storage = .error cause := by
  rw [plainDifferences] at failed
  cases run : plainFields (plainTypes old new allow []) old.storage new.storage with
  | error cause' =>
    rw [run] at failed
    exact congrArg _ (Except.error.inj failed)
  | ok found => rw [run] at failed; cases failed

/-- Where nothing fails, every pair that is reached can be compared. -/
lemma Reached.ends {ops : List ItemOperation} (ended : plainDifferences old new allow = .ok ops)
    (reached : Reached old new allow p) :
    ∃ path label change, plainTypes old new allow path label p.1 p.2 = .ok change := by
  obtain ⟨found, fields, -⟩ := plainDifferences_ok ended
  obtain ⟨a, b, place, reached⟩ := reached
  obtain ⟨change, start⟩ := plainFields_asked fields place
  obtain ⟨path, label, change, ended, -⟩ := reached_ends (p := (a.type, b.type)) start reached
  exact ⟨path, label, change, ended⟩

lemma Reached.not_cyclic {ops : List ItemOperation}
    (ended : plainDifferences old new allow = .ok ops) (reached : Reached old new allow p) :
    ¬ TransGen (LeadsTo old new allow) p p := by
  obtain ⟨_, _, _, ended⟩ := reached.ends ended
  exact not_cyclic_of_ends ended

lemma cycle_of_error {cause : Recursion} (failed : plainDifferences old new allow = .error cause) :
    Reached old new allow (cause.old, cause.new) ∧
      TransGen (LeadsTo old new allow) (cause.old, cause.new) (cause.old, cause.new) := by
  obtain ⟨a, b, place, start⟩ := plainFields_error (plainDifferences_error failed)
  obtain ⟨reached, found⟩ := plainTypes_error start
  rcases found with passed | cycle
  · cases passed
  · exact ⟨⟨a, b, place, reached⟩, cycle⟩

/--
A comparator comes to an end: however much deeper than its bound it may go, it finds
the same. It fails exactly if a cycle is reached from the positions that both storages
have, and the pair that it names is one that is reached and lies on a cycle.
-/
theorem fails_iff_cycle_reached (old new : Layout) (allow : Bool) (runs : Nat) :
    (∀ levels further, (Comparator.afterRuns old new allow runs).fuel ≤ levels →
      (Comparator.afterRuns old new allow runs).unrolled levels further =
        (Comparator.afterRuns old new allow runs).differences.1) ∧
      ((∃ cause, (Comparator.afterRuns old new allow runs).differences.1 = .error cause) ↔
        ∃ p, Reached old new allow p ∧ TransGen (LeadsTo old new allow) p p) ∧
      ∀ cause, (Comparator.afterRuns old new allow runs).differences.1 = .error cause →
        Reached old new allow (cause.old, cause.new) ∧
          TransGen (LeadsTo old new allow) (cause.old, cause.new) (cause.old, cause.new) := by
  obtain ⟨m, faithful, after⟩ := afterRuns_faithful old new allow runs
  rw [after, (differences_run faithful).1]
  refine ⟨fun levels further enough => ?_, ⟨?_, ?_⟩, fun cause failed => cycle_of_error failed⟩
  · have run := (storage_runs ⟨old, new, allow, m⟩ further enough m faithful).1
    exact congrArg (Except.map _) run
  · rintro ⟨cause, failed⟩
    exact ⟨_, cycle_of_error failed⟩
  · rintro ⟨p, reached, cycle⟩
    cases outcome : plainDifferences old new allow with
    | error cause => exact ⟨cause, rfl⟩
    | ok ops => exact absurd cycle (reached.not_cyclic outcome)

/-! ## A list of nodes -/

lemma Outcome.eq_error {outcome : Outcome} {cause : Recursion}
    (h : outcome.same (.error cause) = true) : outcome = .error cause := by
  cases outcome with
  | ok ops => cases h
  | error cause' => exact congrArg _ (of_decide_eq_true h)

lemma Outcome.exists_ok {outcome : Outcome} {ops : List ItemOperation}
    (h : outcome.same (.ok ops) = true) :
    ∃ found, outcome = .ok found ∧ ItemOperation.sameLists found ops = true := by
  cases outcome with
  | ok found => exact ⟨found, rfl, h⟩
  | error cause => cases h

/-- A variable whose type has a mapping to that type. -/
def linkedNodes : Layout :=
  ⟨[⟨"List", "root", "t_struct(Node)storage", 0, 0, none, none⟩],
   Table.ofList [("t_uint256", ⟨"uint256", 32, .value⟩),
    ("t_struct(Node)storage", ⟨"struct Node", 32,
      .struct (some [⟨"next", "t_mapping(t_uint256,t_struct(Node)storage)"⟩])⟩),
    ("t_mapping(t_uint256,t_struct(Node)storage)", ⟨"mapping(uint256 => struct Node)", 32,
      .mapping "t_uint256" "t_struct(Node)storage"⟩)]⟩

theorem linkedNodes_fail :
    (Comparator.fresh linkedNodes linkedNodes false).unrolled 10 (fun _ _ _ => pure none) =
        .error ⟨"t_struct(Node)storage", "t_struct(Node)storage", "next"⟩ ∧
      TransGen (LeadsTo linkedNodes linkedNodes false)
        ("t_struct(Node)storage", "t_struct(Node)storage")
        ("t_struct(Node)storage", "t_struct(Node)storage") := by
  have failed : (Comparator.afterRuns linkedNodes linkedNodes false 0).differences.1 =
      .error ⟨"t_struct(Node)storage", "t_struct(Node)storage", "next"⟩ :=
    Outcome.eq_error (by decide +kernel)
  have exactly := fails_iff_cycle_reached linkedNodes linkedNodes false 0
  exact ⟨(exactly.1 10 _ (by decide +kernel)).trans failed, (exactly.2.2 _ failed).2⟩

end Comparison

end UpgradeSafety
