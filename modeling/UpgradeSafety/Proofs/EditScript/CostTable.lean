import UpgradeSafety.Proofs.EditScript.CheapestPath

/-!
# The table and the way back

Each entry of the table of costs is what the cheapest path between the first elements
of the two lists costs, and the way back finds the steps of that path: its entries and
elements are all there, and every step leaves fewer elements to go.
-/

namespace UpgradeSafety

namespace EditScript

variable {α : Type} [DecidableEq α]

/-! ## Entries -/

/-- The costs of turning `os` into `behind` with none, one and more of `ns` behind it, where all
lists but `ns` are taken from the back. -/
def rowOf (os : List α) : List α → List α → List Nat
  | behind, [] => [(cheapestPath os behind).cost]
  | behind, n :: ns => (cheapestPath os behind).cost :: rowOf os (n :: behind) ns

lemma cost_of_inserts (ns : List α) :
    (cheapestPath [] ns).cost = ns.length * Edit.insertionCost := by
  induction ns with
  | nil =>
    rw [cheapestPath]
    simp
  | cons n ns ih =>
    rw [cheapestPath]
    simp only [Path.push, Edit.cost, ih, List.length_cons, Nat.add_mul, Nat.one_mul]
    omega

lemma rowOf_nil (behind ns : List α) : rowOf [] behind ns =
    (List.range (ns.length + 1)).map fun j => (behind.length + j) * Edit.insertionCost := by
  induction ns generalizing behind with
  | nil => simp [rowOf, cost_of_inserts]
  | cons n ns ih =>
    have first : List.range (ns.length + 1 + 1) = 0 :: (List.range (ns.length + 1)).map Nat.succ :=
      List.range_succ_eq_map
    rw [rowOf, ih, cost_of_inserts, List.length_cons, List.length_cons, first, List.map_cons,
      List.map_map]
    refine congrArg (_ :: ·) (List.map_congr_left fun j _ => ?_)
    have shifted : behind.length + 1 + j = behind.length + j.succ := by omega
    rw [shifted]
    rfl

lemma firstRow_eq (new : List α) : firstRow new = rowOf [] [] new := by
  rw [rowOf_nil, firstRow]
  simp

/-- A row begins with the entry for what is in front of its elements. -/
lemma rowOf_eq_cons (os behind ns : List α) :
    ∃ rest, rowOf os behind ns = (cheapestPath os behind).cost :: rest := by
  cases ns with
  | nil => exact ⟨[], rfl⟩
  | cons n ns => exact ⟨rowOf os (n :: behind) ns, rfl⟩

/-- An entry is the least of the three costs to come from. -/
lemma rowBehind_eq (o : α) (os behind ns : List α) :
    (cheapestPath (o :: os) behind).cost ::
        rowBehind o (cheapestPath (o :: os) behind).cost ns (rowOf os behind ns) =
      rowOf (o :: os) behind ns := by
  induction ns generalizing behind with
  | nil => rfl
  | cons n ns ih =>
    obtain ⟨rest, above⟩ := rowOf_eq_cons os (n :: behind) ns
    have entry : (cheapestPath (o :: os) (n :: behind)).cost =
        min (min ((cheapestPath os behind).cost + (pair o n).cost)
          ((cheapestPath os (n :: behind)).cost + Edit.insertionCost))
          ((cheapestPath (o :: os) behind).cost + Edit.insertionCost) := by
      rw [cheapestPath, cost_cheapest]
      simp only [Path.push, Edit.cost]
      omega
    have behind' := ih (n :: behind)
    simp only [rowOf, above, rowBehind] at behind' ⊢
    rw [← entry, behind']

lemma rowBelow_eq (o : α) (os new : List α) :
    rowBelow o new (rowOf os [] new) = rowOf (o :: os) [] new := by
  obtain ⟨rest, above⟩ := rowOf_eq_cons os [] new
  have first : (cheapestPath (o :: os) []).cost =
      (cheapestPath os []).cost + Edit.insertionCost := by
    rw [cheapestPath]
    simp only [Path.push, Edit.cost]
    omega
  rw [← rowBehind_eq, first, above, rowBelow]

lemma rowsFrom_get (new os old : List α) {i : Nat} (inside : i ≤ old.length) :
    (rowsFrom new (rowOf os [] new) old)[i]? =
      some (rowOf ((old.take i).reverse ++ os) [] new) := by
  induction old generalizing os i with
  | nil =>
    obtain rfl : i = 0 := Nat.le_zero.1 inside
    rfl
  | cons o old ih =>
    cases i with
    | zero => rfl
    | succ i =>
      have below := ih (o :: os) (Nat.le_of_succ_le_succ inside)
      rw [rowsFrom, List.getElem?_cons_succ, rowBelow_eq, below]
      simp

lemma rowOf_get (os behind ns : List α) {j : Nat} (inside : j ≤ ns.length) :
    (rowOf os behind ns)[j]? = some (cheapestPath os ((ns.take j).reverse ++ behind)).cost := by
  induction ns generalizing behind j with
  | nil =>
    obtain rfl : j = 0 := Nat.le_zero.1 inside
    rfl
  | cons n ns ih =>
    cases j with
    | zero => rfl
    | succ j =>
      have rest := ih (n :: behind) (Nat.le_of_succ_le_succ inside)
      rw [rowOf, List.getElem?_cons_succ, rest]
      simp

/-- The cheapest path from the first `i` old elements to the first `j` new ones. -/
def pathTo (old new : List α) (i j : Nat) : Path α :=
  cheapestPath (old.take i).reverse (new.take j).reverse

/-- The table has an entry for all numbers of elements, the cost of the cheapest path. -/
lemma costAt?_costs (old new : List α) {i j : Nat} (hi : i ≤ old.length) (hj : j ≤ new.length) :
    costAt? (costs old new) i j = some (pathTo old new i j).cost := by
  have row := rowsFrom_get new [] old hi
  have column := rowOf_get ((old.take i).reverse ++ []) [] new hj
  rw [costAt?, costs, firstRow_eq, row, Option.bind_some, column, pathTo]
  simp only [List.append_nil]

/-! ## Steps -/

/-- Marks the insertions in front of the first other step. -/
def markAppends : List (Edit α) → List (Edit α)
  | .insert n _ :: rest => .insert n true :: markAppends rest
  | steps => steps

/-- The steps of a path to the first `i` old elements as the way back tells them: insertions are
marked as long as all old elements are there. -/
def toldFrom (old : List α) (i : Nat) (steps : List (Edit α)) : List (Edit α) :=
  if i = old.length then markAppends steps else steps

omit [DecidableEq α] in
lemma toldFrom_insert (old : List α) (i : Nat) (n : α) (steps : List (Edit α)) :
    toldFrom old i (.insert n false :: steps) =
      .insert n (decide (i = old.length)) :: toldFrom old i steps := by
  by_cases all : i = old.length
  · rw [toldFrom, if_pos all, toldFrom, if_pos all, markAppends, decide_eq_true all]
  · rw [toldFrom, if_neg all, toldFrom, if_neg all, decide_eq_false all]

omit [DecidableEq α] in
lemma markAppends_of_old {step : Edit α} (takes : step.old?.isSome = true)
    (steps : List (Edit α)) : markAppends (step :: steps) = step :: steps := by
  cases step with
  | insert n append => cases takes
  | _ => rfl

omit [DecidableEq α] in
lemma toldFrom_of_old {old : List α} {i : Nat} (inside : i < old.length) {step : Edit α}
    (takes : step.old?.isSome = true) (steps : List (Edit α)) :
    toldFrom old (i + 1) (step :: steps) = step :: toldFrom old i steps := by
  simp only [toldFrom, markAppends_of_old takes, ite_self, if_neg (Nat.ne_of_lt inside)]

omit [DecidableEq α] in
lemma take_reverse {l : List α} {i : Nat} (inside : i < l.length) :
    (l.take (i + 1)).reverse = l[i] :: (l.take i).reverse := by
  rw [List.take_add_one, List.getElem?_eq_getElem inside]
  simp

lemma pair_takes (o n : α) : (pair o n).old?.isSome = true := by
  rw [pair]
  split <;> rfl

section Steps

variable {old new : List α} {i j : Nat}

lemma pathTo_first : (pathTo old new 0 0).steps = [] := by
  rw [pathTo, List.take_zero, List.take_zero, List.reverse_nil, cheapestPath]

lemma pathTo_inserted (hj : j < new.length) :
    pathTo old new 0 (j + 1) = (pathTo old new 0 j).push (.insert new[j] false) := by
  simp only [pathTo, take_reverse hj, List.take_zero, List.reverse_nil, cheapestPath]

lemma pathTo_deleted (hi : i < old.length) :
    pathTo old new (i + 1) 0 = (pathTo old new i 0).push (.delete old[i]) := by
  simp only [pathTo, take_reverse hi, List.take_zero, List.reverse_nil, cheapestPath]

lemma pathTo_cheapest (hi : i < old.length) (hj : j < new.length) :
    pathTo old new (i + 1) (j + 1) = cheapest ((pathTo old new i j).push (pair old[i] new[j]))
      ((pathTo old new (i + 1) j).push (.insert new[j] false))
      ((pathTo old new i (j + 1)).push (.delete old[i])) := by
  simp only [pathTo, take_reverse hi, take_reverse hj, cheapestPath]

/-- A step on the way back leads to the rest of the path, with fewer elements to go. -/
structure LeadsBack (old new : List α) (i j : Nat) (step : Edit α) (i' j' : Nat) : Prop where
  found : lastStep? (costs old new) old new i j = some (step, i', j')
  olds : i' ≤ i
  news : j' ≤ j
  fewer : i' + j' < i + j
  told : toldFrom old i (pathTo old new i j).steps =
    step :: toldFrom old i' (pathTo old new i' j').steps

lemma leadsBack_inserted (hj : j < new.length) :
    LeadsBack old new 0 (j + 1) (.insert new[j] (decide (0 = old.length))) 0 j where
  found := by
    have here : costAt? (costs old new) 0 (j + 1) = some (pathTo old new 0 (j + 1)).cost :=
      costAt?_costs old new (Nat.zero_le _) hj
    have left := costAt?_costs old new (Nat.zero_le _) (Nat.le_of_lt hj)
    have cost : (pathTo old new 0 (j + 1)).cost =
        (pathTo old new 0 j).cost + Edit.insertionCost := by
      rw [pathTo_inserted hj]
      exact Path.cost_push _ _
    simp [lastStep?, here, left, cost, List.getElem?_eq_getElem hj]
  olds := Nat.le_refl 0
  news := Nat.le_succ j
  fewer := by omega
  told := by rw [pathTo_inserted hj, Path.push, toldFrom_insert]

lemma leadsBack_deleted (hi : i < old.length) :
    LeadsBack old new (i + 1) 0 (.delete old[i]) i 0 where
  found := by simp [lastStep?, List.getElem?_eq_getElem hi]
  olds := Nat.le_succ i
  news := Nat.le_refl 0
  fewer := by omega
  told := by rw [pathTo_deleted hi, Path.push, toldFrom_of_old hi rfl]

/-- Where elements are left on both sides, the last step is told from the costs of the paths that
it might end. -/
lemma lastStep?_inside (hi : i < old.length) (hj : j < new.length) :
    lastStep? (costs old new) old new (i + 1) (j + 1) = some
      (if (pathTo old new (i + 1) (j + 1)).cost =
          ((pathTo old new i j).push (pair old[i] new[j])).cost then
        (pair old[i] new[j], i, j)
      else if (pathTo old new (i + 1) (j + 1)).cost =
          ((pathTo old new (i + 1) j).push (.insert new[j] false)).cost then
        (.insert new[j] (decide (i + 1 = old.length)), i + 1, j)
      else (.delete old[i], i, j + 1)) := by
  have here : costAt? (costs old new) (i + 1) (j + 1) =
      some (pathTo old new (i + 1) (j + 1)).cost :=
    costAt?_costs old new hi hj
  have diagonal := costAt?_costs old new (Nat.le_of_lt hi) (Nat.le_of_lt hj)
  have left : costAt? (costs old new) (i + 1) j = some (pathTo old new (i + 1) j).cost :=
    costAt?_costs old new hi (Nat.le_of_lt hj)
  have inserted : ((pathTo old new (i + 1) j).push (.insert new[j] false)).cost =
      (pathTo old new (i + 1) j).cost + Edit.insertionCost := Path.cost_push _ _
  rw [inserted, Path.cost_push]
  simp only [lastStep?, here, diagonal, left, List.getElem?_eq_getElem hi,
    List.getElem?_eq_getElem hj, Option.bind_eq_bind, Option.bind_some]
  split
  · rfl
  · split <;> rfl

/-- Where elements are left on both sides, the way back takes the step that the recursion chose. -/
lemma leadsBack_chosen (hi : i < old.length) (hj : j < new.length) :
    ∃ step i' j', LeadsBack old new (i + 1) (j + 1) step i' j' := by
  have found := lastStep?_inside hi hj
  have chosen := pathTo_cheapest hi hj
  rw [cheapest_eq, ← pathTo_cheapest hi hj] at chosen
  by_cases paired : (pathTo old new (i + 1) (j + 1)).cost =
      ((pathTo old new i j).push (pair old[i] new[j])).cost
  · rw [if_pos paired] at chosen found
    refine ⟨_, _, _, found, Nat.le_succ i, Nat.le_succ j, by omega, ?_⟩
    rw [chosen, Path.push, toldFrom_of_old hi (pair_takes _ _)]
  · rw [if_neg paired] at chosen found
    by_cases inserted : (pathTo old new (i + 1) (j + 1)).cost =
        ((pathTo old new (i + 1) j).push (.insert new[j] false)).cost
    · rw [if_pos inserted] at chosen found
      refine ⟨_, _, _, found, Nat.le_refl _, Nat.le_succ j, by omega, ?_⟩
      rw [chosen, Path.push, toldFrom_insert]
    · rw [if_neg inserted] at chosen found
      refine ⟨_, _, _, found, Nat.le_succ i, Nat.le_refl _, by omega, ?_⟩
      rw [chosen, Path.push, toldFrom_of_old hi rfl]

/-- From every entry but the first one a step leads back. -/
lemma leadsBack (hi : i ≤ old.length) (hj : j ≤ new.length) (more : 0 < i + j) :
    ∃ step i' j', LeadsBack old new i j step i' j' := by
  cases i with
  | zero =>
    cases j with
    | zero => omega
    | succ j => exact ⟨_, _, _, leadsBack_inserted hj⟩
  | succ i =>
    cases j with
    | zero => exact ⟨_, _, _, leadsBack_deleted hi⟩
    | succ j => exact leadsBack_chosen hi hj

omit [DecidableEq α] in
lemma toldFrom_nil (i : Nat) : toldFrom old i [] = [] := by
  unfold toldFrom
  split <;> rfl

lemma wayBack?_step {table : List (List Nat)} {step : Edit α} {i' j' : Nat}
    (found : lastStep? table old new i j = some (step, i', j')) (bound : Nat) :
    wayBack? table old new (bound + 1) i j =
      (wayBack? table old new bound i' j').map (step :: ·) := by
  have more : ¬ (i = 0 ∧ j = 0) := by
    rintro ⟨rfl, rfl⟩
    cases found
  rw [wayBack?, found, Option.bind_some]
  exact fun first second => more ⟨first, second⟩

/-- The way back comes to an end, with as many steps at most as there are elements. -/
lemma wayBack?_eq {bound : Nat} (hi : i ≤ old.length) (hj : j ≤ new.length)
    (enough : i + j ≤ bound) :
    wayBack? (costs old new) old new bound i j =
      some (toldFrom old i (pathTo old new i j).steps) := by
  induction bound generalizing i j with
  | zero =>
    obtain ⟨rfl, rfl⟩ : i = 0 ∧ j = 0 := by omega
    rw [wayBack?, pathTo_first, toldFrom_nil]
  | succ bound ih =>
    by_cases more : 0 < i + j
    · obtain ⟨step, i', j', back⟩ := leadsBack hi hj more
      have fewer := back.fewer
      have rest : i' + j' ≤ bound := by omega
      rw [wayBack?_step back.found, back.told,
        ih (Nat.le_trans back.olds hi) (Nat.le_trans back.news hj) rest, Option.map_some]
    · obtain ⟨rfl, rfl⟩ : i = 0 ∧ j = 0 := by omega
      rw [wayBack?, pathTo_first, toldFrom_nil]

end Steps

/-- The way back from the last entry stays inside the table and finds the cheapest path. -/
lemma between?_eq (old new : List α) : between? old new =
    some (markAppends (cheapestPath old.reverse new.reverse).steps).reverse := by
  rw [between?, wayBack?_eq (Nat.le_refl _) (Nat.le_refl _) (Nat.le_refl _), toldFrom, if_pos rfl,
    pathTo, List.take_length, List.take_length, Option.map_some]

lemma between_eq (old new : List α) :
    between old new = (markAppends (cheapestPath old.reverse new.reverse).steps).reverse := by
  rw [between, between?_eq, Option.getD_some]

end EditScript

end UpgradeSafety
