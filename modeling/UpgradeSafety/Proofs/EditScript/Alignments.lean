import UpgradeSafety.Proofs.EditScript.CostTable

/-!
# Scripts are cheapest alignments

The script between two lists is always found, aligns them, and costs no more than any
other alignment. Its insertions are marked exactly if nothing of the old list follows.
-/

namespace UpgradeSafety

namespace EditScript

variable {α : Type}

lemma markAppends_olds (steps : List (Edit α)) :
    (markAppends steps).filterMap Edit.old? = steps.filterMap Edit.old? := by
  fun_induction markAppends steps with
  | case1 n _ rest ih => exact ih
  | case2 steps _ => rfl

lemma markAppends_news (steps : List (Edit α)) :
    (markAppends steps).filterMap Edit.new? = steps.filterMap Edit.new? := by
  fun_induction markAppends steps with
  | case1 n _ rest ih => exact congrArg (n :: ·) ih
  | case2 steps _ => rfl

lemma totalCost_markAppends (steps : List (Edit α)) :
    totalCost (markAppends steps) = totalCost steps := by
  fun_induction markAppends steps with
  | case1 n _ rest ih => simp only [totalCost, Edit.cost, ih]
  | case2 steps _ => rfl

/-- Marking adds no step but insertions. -/
lemma mem_of_markAppends {steps : List (Edit α)} {step : Edit α} (member : step ∈ markAppends steps)
    (noInsert : ∀ n append, step ≠ .insert n append) : step ∈ steps := by
  fun_induction markAppends steps with
  | case1 n _ rest ih =>
    rcases List.mem_cons.1 member with here | member
    · exact absurd here (noInsert n true)
    · exact List.mem_cons_of_mem _ (ih member)
  | case2 steps _ => exact member

/-- Of steps told from the last one, an insertion is marked if no step before it has an old side. -/
lemma marked_iff {steps front back : List (Edit α)} {n : α} {append : Bool}
    (plain : ∀ step ∈ steps, Plain step)
    (parts : markAppends steps = front ++ .insert n append :: back) :
    append = true ↔ front.filterMap Edit.old? = [] := by
  induction steps generalizing front with
  | nil => cases front <;> cases parts
  | cons step steps ih =>
    obtain ⟨here, others⟩ := List.forall_mem_cons.1 plain
    cases olds : step.old? with
    | some o =>
      -- the first step has an old side, so nothing was marked
      rw [markAppends_of_old (by rw [olds]; rfl)] at parts
      have unmarked : append = false := plain (.insert n append) (by rw [parts]; simp)
      cases front with
      | nil =>
        obtain ⟨rfl, -⟩ := List.cons.inj parts
        cases olds
      | cons first front =>
        obtain ⟨rfl, -⟩ := List.cons.inj parts
        simp [unmarked, olds]
    | none =>
      cases step with
      | insert m _ =>
        rw [markAppends] at parts
        cases front with
        | nil =>
          obtain ⟨here, -⟩ := List.cons.inj parts
          cases here
          exact iff_of_true rfl rfl
        | cons first front =>
          obtain ⟨rfl, behind⟩ := List.cons.inj parts
          have marked := ih others behind
          rwa [List.filterMap_cons_none rfl]
      | _ => cases olds

variable [DecidableEq α]

lemma between_alignment (old new : List α) : Alignment (between old new) old new := by
  have aligns := cheapestPath_aligns old.reverse new.reverse
  have marked : Alignment (markAppends (cheapestPath old.reverse new.reverse).steps)
      old.reverse new.reverse := by
    refine ⟨?_, ?_, fun o n member => ?_⟩
    · rw [markAppends_olds, aligns.olds]
    · rw [markAppends_news, aligns.news]
    · exact aligns.plain _ (mem_of_markAppends member nofun)
  have turned := marked.reverse
  rwa [List.reverse_reverse, List.reverse_reverse, ← between_eq] at turned

lemma totalCost_between (old new : List α) :
    totalCost (between old new) = (cheapestPath old.reverse new.reverse).cost := by
  rw [between_eq, totalCost_reverse, totalCost_markAppends, cheapestPath_cost]

/--
The way back through the table always ends inside it. The script that it finds keeps equal
elements and replaces different ones, its old sides are the old list in order and its new
sides the new one, an insertion is marked as an append exactly if no step behind it has an
old side, and every other alignment of the two lists costs as much or more.
-/
theorem between_is_cheapest_alignment (old new : List α) :
    between? old new = some (between old new) ∧
      Alignment (between old new) old new ∧
      (∀ o n, Edit.substitute o n ∈ between old new → o ≠ n) ∧
      (∀ before n append after, between old new = before ++ .insert n append :: after →
        (append = true ↔ after.filterMap Edit.old? = [])) ∧
      ∀ other, Alignment other old new → totalCost (between old new) ≤ totalCost other := by
  have plain := (cheapestPath_aligns old.reverse new.reverse).plain
  refine ⟨?_, between_alignment old new, ?_, ?_, ?_⟩
  · rw [between?_eq, between_eq]
  · intro o n member
    rw [between_eq, List.mem_reverse] at member
    exact plain _ (mem_of_markAppends member nofun)
  · intro before n append after parts
    rw [between_eq] at parts
    have told := congrArg List.reverse parts
    rw [List.reverse_reverse, List.reverse_append, List.reverse_cons, List.append_assoc] at told
    have marked := marked_iff plain told
    rwa [List.filterMap_reverse, List.reverse_eq_nil_iff] at marked
  · intro other aligned
    have least := cost_le_totalCost aligned.reverse
    rwa [totalCost_reverse, ← totalCost_between] at least

/-- A new first element costs two wherever it came from. -/
example : between ["idle", "busy"] ["new", "idle", "busy", "gone"] =
    [.insert "new" false, .keep "idle" "idle", .keep "busy" "busy", .insert "gone" true] := by
  decide

end EditScript

end UpgradeSafety
