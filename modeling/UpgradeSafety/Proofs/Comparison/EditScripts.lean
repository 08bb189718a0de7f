import Mathlib.Data.List.Infix
import Mathlib.Data.List.Nodup
import Mathlib.Tactic.Lemma
import UpgradeSafety.Comparison.Rule
import UpgradeSafety.Proofs.EditScript.CostTable

/-!
# Scripts that only keep and append

When the edits between two lists of enum members leave every index alone: only if
the old list begins the new one, and always then if no name is repeated or nothing is
added. A repeated name can make another script as cheap.
-/

namespace UpgradeSafety

/-- A step that leaves the indices of the old elements alone. -/
def Edit.isQuiet {α : Type} : Edit α → Bool
  | .keep _ _ => true
  | .insert _ append => append
  | .substitute _ _ => false
  | .delete _ => false

namespace EditScript

variable {α : Type} [DecidableEq α]

/-! ## Costs -/

/-- Every new element that has no old one to take the place of is inserted. -/
lemma length_le_cost (os ns : List α) :
    2 * ns.length ≤ (cheapestPath os ns).cost + 2 * os.length := by
  fun_induction cheapestPath os ns with
  | case1 => simp
  | case2 n ns ih =>
    simp only [Path.push, Edit.cost, Edit.insertionCost, List.length_cons, List.length_nil] at ih ⊢
    omega
  | case3 o os ih =>
    simp only [List.length_nil]
    omega
  | case4 o os n ns paired inserted deleted =>
    simp only [cost_cheapest, Path.push, Edit.cost, Edit.insertionCost, List.length_cons]
      at paired inserted deleted ⊢
    omega

omit [DecidableEq α] in
lemma cheapest_eq_inserted {paired inserted deleted : Path α}
    (undercuts : inserted.cost < paired.cost) (least : inserted.cost ≤ deleted.cost) :
    cheapest paired inserted deleted = inserted := by
  unfold cheapest
  simp only
  rw [if_neg (by omega), if_pos (by omega)]

lemma cheapestPath_self (os : List α) :
    cheapestPath os os = ⟨0, os.map fun x => .keep x x⟩ := by
  induction os with
  | nil => rw [cheapestPath, List.map_nil]
  | cons o os ih =>
    rw [cheapestPath, ih]
    simp [cheapest, pair, Path.push, Edit.cost]

/-- If no element is repeated and the new list ends in the old one, all that comes before is
inserted: to keep an element elsewhere would cost more. -/
lemma cheapestPath_append {added os : List α} (distinct : (added ++ os).Nodup) :
    cheapestPath os (added ++ os) =
      ⟨2 * added.length, added.map (Edit.insert · false) ++ os.map fun x => .keep x x⟩ := by
  induction added with
  | nil => simpa using cheapestPath_self os
  | cons n added ih =>
    rw [List.cons_append, List.nodup_cons] at distinct
    have rest := ih distinct.2
    cases os with
    | nil =>
      rw [List.cons_append, cheapestPath, rest]
      simp [Path.push, Edit.cost, Edit.insertionCost, Nat.mul_add, Nat.add_comm]
    | cons o os =>
      have differs : o ≠ n := fun same => distinct.1 (by simp [same])
      have paired := length_le_cost os (added ++ o :: os)
      have deleted := length_le_cost os (n :: (added ++ o :: os))
      simp only [List.length_append, List.length_cons] at paired deleted
      rw [List.cons_append, cheapestPath, cheapest_eq_inserted, rest]
      · simp [Path.push, Edit.cost, Edit.insertionCost, Nat.mul_add, Nat.add_comm]
      · simp only [rest, pair, if_neg differs, Path.push, Edit.cost, Edit.insertionCost,
          Edit.substitutionCost]
        omega
      · simp only [rest, Path.push, Edit.cost, Edit.insertionCost]
        omega

/-! ## What the steps of a script say -/

omit [DecidableEq α] in
lemma Aligns.eq_of_quiet {steps : List (Edit α)} {os ns : List α} (aligns : Aligns steps os ns)
    (quiet : ∀ step ∈ steps, step.isQuiet = true) : os = ns := by
  induction aligns with
  | nil => rfl
  | keep x _ ih => rw [ih fun step h => quiet step (.tail _ h)]
  | substitute _ _ _ => cases quiet _ List.mem_cons_self
  | insert n _ _ => cases quiet _ List.mem_cons_self
  | delete o _ _ => cases quiet _ List.mem_cons_self

omit [DecidableEq α] in
/-- Where the marked steps are quiet, elements were only added in front. -/
lemma Aligns.suffix_of_quiet {steps : List (Edit α)} {os ns : List α}
    (aligns : Aligns steps os ns) (quiet : ∀ step ∈ markAppends steps, step.isQuiet = true) :
    os <:+ ns := by
  induction aligns with
  | nil => exact List.suffix_rfl
  | keep x rest _ =>
    rw [rest.eq_of_quiet fun step h => quiet step (.tail _ h)]
  | substitute _ _ _ => cases quiet _ List.mem_cons_self
  | delete o _ _ => cases quiet _ List.mem_cons_self
  | insert n _ ih =>
    exact (ih fun step h => quiet step (.tail _ h)).trans (List.suffix_cons n _)

omit [DecidableEq α] in
lemma markAppends_quiet (added os : List α) : ∀ step ∈
    markAppends (added.map (Edit.insert · false) ++ os.map fun x => .keep x x),
      step.isQuiet = true := by
  induction added with
  | nil =>
    have unmarked : markAppends (os.map fun x => Edit.keep x x) = os.map fun x => .keep x x := by
      cases os <;> rfl
    intro step member
    rw [List.map_nil, List.nil_append, unmarked] at member
    obtain ⟨x, -, rfl⟩ := List.mem_map.1 member
    rfl
  | cons n added ih =>
    intro step member
    rcases List.mem_cons.1 member with rfl | member
    · rfl
    · exact ih step member

end EditScript

/-! ## Edits between enum members -/

lemma enumEdits_eq_nil_iff (old new : List String) : enumEdits old new = [] ↔
    ∀ step ∈ EditScript.between old new, step.isQuiet = true := by
  rw [enumEdits, List.filterMap_eq_nil_iff]
  refine forall₂_congr fun step _ => ?_
  cases step with
  | insert n append => cases append <;> simp [Edit.isQuiet]
  | _ => simp [Edit.isQuiet]

/-- Without edits the old members begin the new ones. -/
lemma isPrefix_of_enumEdits {old new : List String} (silent : enumEdits old new = []) :
    old <+: new := by
  rw [enumEdits_eq_nil_iff, EditScript.between_eq] at silent
  have aligns := EditScript.cheapestPath_aligns old.reverse new.reverse
  refine List.reverse_suffix.1 (aligns.suffix_of_quiet fun step member => ?_)
  exact silent step (List.mem_reverse.2 member)

lemma enumEdits_of_path (old added : List String) {cost : Nat}
    (path : EditScript.cheapestPath old.reverse (added ++ old.reverse) =
      ⟨cost, added.map (Edit.insert · false) ++ old.reverse.map fun x => .keep x x⟩) :
    enumEdits old (old ++ added.reverse) = [] := by
  rw [enumEdits_eq_nil_iff, EditScript.between_eq, List.reverse_append, List.reverse_reverse, path]
  intro step member
  exact EditScript.markAppends_quiet added old.reverse step (List.mem_reverse.1 member)

/-- Distinct members after the old ones need no edits. -/
lemma enumEdits_eq_nil {old new : List String} (begins : old <+: new) (distinct : new.Nodup) :
    enumEdits old new = [] := by
  obtain ⟨added, rfl⟩ := begins
  have reversed : (added.reverse ++ old.reverse).Nodup := by
    rw [← List.reverse_append]
    exact List.nodup_reverse.2 distinct
  have silent := enumEdits_of_path old added.reverse (EditScript.cheapestPath_append reversed)
  rwa [List.reverse_reverse] at silent

/-- Equal members need no edits, repeated or not. -/
lemma enumEdits_self (members : List String) : enumEdits members members = [] := by
  have silent := enumEdits_of_path members [] (EditScript.cheapestPath_self members.reverse)
  rwa [List.reverse_nil, List.append_nil] at silent

end UpgradeSafety
