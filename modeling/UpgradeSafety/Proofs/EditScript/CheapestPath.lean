import Mathlib.Tactic.Lemma
import UpgradeSafety.EditScript

/-!
# Cheapest paths

What the table of costs and the way back through it come to, as a plain recursion: the
cheapest script between two lists that are both taken from the back. No other alignment
of the two lists costs less.
-/

namespace UpgradeSafety

namespace EditScript

variable {α : Type}

/-- What a script costs. -/
def totalCost : List (Edit α) → Nat
  | [] => 0
  | step :: steps => step.cost + totalCost steps

/--
A script leads from one list to another: the old sides of its steps are the one in order,
the new sides the other, and what is kept is the same on both sides.
-/
structure Alignment (script : List (Edit α)) (old new : List α) : Prop where
  olds : script.filterMap Edit.old? = old
  news : script.filterMap Edit.new? = new
  kept : ∀ o n, Edit.keep o n ∈ script → o = n

lemma totalCost_append (first rest : List (Edit α)) :
    totalCost (first ++ rest) = totalCost first + totalCost rest := by
  induction first with
  | nil => simp [totalCost]
  | cons step first ih =>
    simp only [List.cons_append, totalCost, ih]
    omega

lemma totalCost_reverse (script : List (Edit α)) : totalCost script.reverse = totalCost script := by
  induction script with
  | nil => rfl
  | cons step script ih =>
    rw [List.reverse_cons, totalCost_append, ih]
    simp only [totalCost]
    omega

lemma Alignment.reverse {script : List (Edit α)} {old new : List α}
    (aligned : Alignment script old new) : Alignment script.reverse old.reverse new.reverse where
  olds := by rw [List.filterMap_reverse, aligned.olds]
  news := by rw [List.filterMap_reverse, aligned.news]
  kept o n member := aligned.kept o n (List.mem_reverse.1 member)

lemma Alignment.tail {step : Edit α} {script : List (Edit α)} {old new : List α}
    (aligned : Alignment (step :: script) old new) :
    Alignment script (script.filterMap Edit.old?) (script.filterMap Edit.new?) where
  olds := rfl
  news := rfl
  kept o n member := aligned.kept o n (List.mem_cons_of_mem _ member)

/-! ## The plain recursion -/

/-- A script from its last step to its first, and what it costs. -/
structure Path (α : Type) where
  cost : Nat
  steps : List (Edit α)

/-- Adds a step behind a script. -/
def Path.push (p : Path α) (step : Edit α) : Path α := ⟨step.cost + p.cost, step :: p.steps⟩

lemma Path.cost_push (p : Path α) (step : Edit α) : (p.push step).cost = p.cost + step.cost :=
  Nat.add_comm step.cost p.cost

/--
The cheapest of three scripts that end in a pairing, an insertion and a
deletion: the first of them that no other one undercuts.
-/
def cheapest (paired inserted deleted : Path α) : Path α :=
  let least := min paired.cost (min deleted.cost inserted.cost)
  if paired.cost = least then paired
  else if inserted.cost = least then inserted
  else deleted

lemma cost_cheapest (paired inserted deleted : Path α) :
    (cheapest paired inserted deleted).cost =
      min paired.cost (min deleted.cost inserted.cost) := by
  unfold cheapest
  simp only
  split
  · assumption
  · split
    · assumption
    · omega

/-- The choice, told from the cost of what is chosen. -/
lemma cheapest_eq (paired inserted deleted : Path α) : cheapest paired inserted deleted =
    if (cheapest paired inserted deleted).cost = paired.cost then paired
    else if (cheapest paired inserted deleted).cost = inserted.cost then inserted
    else deleted := by
  rw [cost_cheapest]
  simp only [cheapest, eq_comm]

lemma cheapest_cases (paired inserted deleted : Path α) :
    cheapest paired inserted deleted = paired ∨ cheapest paired inserted deleted = inserted ∨
      cheapest paired inserted deleted = deleted := by
  unfold cheapest
  simp only
  split
  · exact .inl rfl
  · split
    · exact .inr (.inl rfl)
    · exact .inr (.inr rfl)

variable [DecidableEq α]

/-- The cheapest script between two lists taken from the back, without a table. -/
def cheapestPath : List α → List α → Path α
  | [], [] => ⟨0, []⟩
  | [], n :: ns => (cheapestPath [] ns).push (.insert n false)
  | o :: os, [] => (cheapestPath os []).push (.delete o)
  | o :: os, n :: ns =>
    cheapest ((cheapestPath os ns).push (pair o n))
      ((cheapestPath (o :: os) ns).push (.insert n false))
      ((cheapestPath os (n :: ns)).push (.delete o))
termination_by os ns => os.length + ns.length

/-! ## No alignment costs less -/

lemma cost_pair (o n : α) : (pair o n).cost = if o = n then 0 else Edit.substitutionCost := by
  rw [pair]
  split <;> rfl

lemma cost_le_paired (o n : α) (os ns : List α) :
    (cheapestPath (o :: os) (n :: ns)).cost ≤ (pair o n).cost + (cheapestPath os ns).cost := by
  rw [cheapestPath, cost_cheapest]
  exact Nat.min_le_left _ _

lemma cost_le_inserted (n : α) (os ns : List α) :
    (cheapestPath os (n :: ns)).cost ≤ Edit.insertionCost + (cheapestPath os ns).cost := by
  cases os with
  | nil =>
    rw [cheapestPath]
    exact Nat.le_refl _
  | cons o os =>
    rw [cheapestPath, cost_cheapest]
    exact Nat.le_trans (Nat.min_le_right _ _) (Nat.min_le_right _ _)

lemma cost_le_deleted (o : α) (os ns : List α) :
    (cheapestPath (o :: os) ns).cost ≤ Edit.insertionCost + (cheapestPath os ns).cost := by
  cases ns with
  | nil =>
    rw [cheapestPath]
    exact Nat.le_refl _
  | cons n ns =>
    rw [cheapestPath, cost_cheapest]
    exact Nat.le_trans (Nat.min_le_right _ _) (Nat.min_le_left _ _)

/-- Whatever the first step of another alignment is, the recursion tried it too. -/
lemma cost_le_totalCost {steps : List (Edit α)} {os ns : List α} (aligned : Alignment steps os ns) :
    (cheapestPath os ns).cost ≤ totalCost steps := by
  induction steps generalizing os ns with
  | nil =>
    obtain rfl : [] = os := aligned.olds
    obtain rfl : [] = ns := aligned.news
    rw [cheapestPath]
    exact Nat.le_refl _
  | cons step steps ih =>
    have rest := ih aligned.tail
    obtain ⟨rfl, rfl, kept⟩ := aligned
    cases step with
    | keep o n =>
      obtain rfl := kept o n List.mem_cons_self
      have here := cost_le_paired o o (steps.filterMap Edit.old?) (steps.filterMap Edit.new?)
      rw [cost_pair, if_pos rfl] at here
      simp only [List.filterMap_cons, Edit.old?, Edit.new?, totalCost, Edit.cost]
      omega
    | substitute o n =>
      have here := cost_le_paired o n (steps.filterMap Edit.old?) (steps.filterMap Edit.new?)
      have paired : (pair o n).cost ≤ Edit.substitutionCost := by
        rw [cost_pair]
        split <;> omega
      simp only [List.filterMap_cons, Edit.old?, Edit.new?, totalCost, Edit.cost]
      omega
    | insert n append =>
      have here := cost_le_inserted n (steps.filterMap Edit.old?) (steps.filterMap Edit.new?)
      simp only [List.filterMap_cons, Edit.old?, Edit.new?, totalCost, Edit.cost]
      omega
    | delete o =>
      have here := cost_le_deleted o (steps.filterMap Edit.old?) (steps.filterMap Edit.new?)
      simp only [List.filterMap_cons, Edit.old?, Edit.new?, totalCost, Edit.cost]
      omega

/-! ## What the steps of a path say -/

/-- The steps lead from one list to the other, each step telling what happens at the front. -/
inductive Aligns : List (Edit α) → List α → List α → Prop where
  | nil : Aligns [] [] []
  | keep {steps : List (Edit α)} {os ns : List α} (x : α) (rest : Aligns steps os ns) :
      Aligns (.keep x x :: steps) (x :: os) (x :: ns)
  | substitute {steps : List (Edit α)} {os ns : List α} {o n : α} (differs : o ≠ n)
      (rest : Aligns steps os ns) : Aligns (.substitute o n :: steps) (o :: os) (n :: ns)
  | insert {steps : List (Edit α)} {os ns : List α} (n : α) (rest : Aligns steps os ns) :
      Aligns (.insert n false :: steps) os (n :: ns)
  | delete {steps : List (Edit α)} {os ns : List α} (o : α) (rest : Aligns steps os ns) :
      Aligns (.delete o :: steps) (o :: os) ns

lemma Aligns.pair {steps : List (Edit α)} {os ns : List α} (o n : α) (rest : Aligns steps os ns) :
    Aligns (pair o n :: steps) (o :: os) (n :: ns) := by
  rw [EditScript.pair]
  by_cases same : o = n
  · rw [if_pos same, same]
    exact .keep n rest
  · rw [if_neg same]
    exact .substitute same rest

lemma cheapestPath_aligns (os ns : List α) : Aligns (cheapestPath os ns).steps os ns := by
  fun_induction cheapestPath os ns with
  | case1 => exact .nil
  | case2 n ns ih => exact .insert n ih
  | case3 o os ih => exact .delete o ih
  | case4 o os n ns paired inserted deleted =>
    rcases cheapest_cases ((cheapestPath os ns).push (EditScript.pair o n))
      ((cheapestPath (o :: os) ns).push (.insert n false))
      ((cheapestPath os (n :: ns)).push (.delete o)) with chosen | chosen | chosen
    · rw [chosen]
      exact .pair o n paired
    · rw [chosen]
      exact .insert n inserted
    · rw [chosen]
      exact .delete o deleted

lemma cheapestPath_cost (os ns : List α) :
    (cheapestPath os ns).cost = totalCost (cheapestPath os ns).steps := by
  fun_induction cheapestPath os ns with
  | case1 => rfl
  | case2 n ns ih => simp only [Path.push, totalCost, ih]
  | case3 o os ih => simp only [Path.push, totalCost, ih]
  | case4 o os n ns paired inserted deleted =>
    rcases cheapest_cases ((cheapestPath os ns).push (EditScript.pair o n))
      ((cheapestPath (o :: os) ns).push (.insert n false))
      ((cheapestPath os (n :: ns)).push (.delete o)) with chosen | chosen | chosen
    · rw [chosen]
      simp only [Path.push, totalCost, paired]
    · rw [chosen]
      simp only [Path.push, totalCost, inserted]
    · rw [chosen]
      simp only [Path.push, totalCost, deleted]

omit [DecidableEq α] in
lemma Aligns.olds {steps : List (Edit α)} {os ns : List α} (aligns : Aligns steps os ns) :
    steps.filterMap Edit.old? = os := by
  induction aligns with
  | nil => rfl
  | keep x _ ih => exact congrArg (x :: ·) ih
  | @substitute _ _ _ o _ _ _ ih => exact congrArg (o :: ·) ih
  | insert _ _ ih => exact ih
  | delete o _ ih => exact congrArg (o :: ·) ih

omit [DecidableEq α] in
lemma Aligns.news {steps : List (Edit α)} {os ns : List α} (aligns : Aligns steps os ns) :
    steps.filterMap Edit.new? = ns := by
  induction aligns with
  | nil => rfl
  | keep x _ ih => exact congrArg (x :: ·) ih
  | @substitute _ _ _ _ n _ _ ih => exact congrArg (n :: ·) ih
  | insert n _ ih => exact congrArg (n :: ·) ih
  | delete _ _ ih => exact ih

/-- Equal elements are kept, different ones are replaced, and no insertion is marked. -/
def Plain : Edit α → Prop
  | .keep o n => o = n
  | .substitute o n => o ≠ n
  | .insert _ append => append = false
  | .delete _ => True

omit [DecidableEq α] in
lemma Aligns.plain {steps : List (Edit α)} {os ns : List α} (aligns : Aligns steps os ns) :
    ∀ step ∈ steps, Plain step := by
  induction aligns with
  | nil => exact fun _ member => nomatch member
  | keep _ _ ih => exact List.forall_mem_cons.2 ⟨rfl, ih⟩
  | substitute differs _ ih => exact List.forall_mem_cons.2 ⟨differs, ih⟩
  | insert _ _ ih => exact List.forall_mem_cons.2 ⟨rfl, ih⟩
  | delete _ _ ih => exact List.forall_mem_cons.2 ⟨trivial, ih⟩

end EditScript

end UpgradeSafety
