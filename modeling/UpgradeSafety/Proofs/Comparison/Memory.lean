import Mathlib.Logic.Function.Iterate
import UpgradeSafety.Proofs.Comparison.Paths

/-!
# What a comparator remembers

Whatever a comparator was asked before, it answers as the plain recursion does,
and so does every result that it remembers. A result is remembered while other
pairs are open; it holds without them, because an open pair leads to the pair of
the result and would lie on a cycle if it were met behind it.
-/

namespace UpgradeSafety

/-- The comparator after a number of comparisons, failed ones included. -/
def Comparator.afterRuns (old new : Layout) (allow : Bool) : Nat → Comparator
  | 0 => .fresh old new allow
  | runs + 1 => (afterRuns old new allow runs).differences.2

namespace Comparison

/-- One level of the comparison of types, where `inside` compares the types further in. -/
def level (old new : Layout) (allow : Bool) (inside : TypeComparison) : TypeComparison :=
  fun label o n => do
    let memory ← get
    let compared : Step (Option Change) := do
      if memory.inProgress.contains (o, n) then throw ⟨o, n, label⟩
      else
        let change ← whileComparing (o, n)
          (followRule allow inside label o n (Rule.ofTypes old new o n))
        modify fun memory => { memory with results := ((o, n), change) :: memory.results }
        pure change
    (memory.results.lookup (o, n)).elim compared pure

section Memory

variable {old new : Layout} {allow : Bool} {path : List TypePair} {α β : Type}

/-- A memory inside the pairs of `path` whose results are those of the plain recursion. -/
structure Faithful (old new : Layout) (allow : Bool) (path : List TypePair) (m : Memory) :
    Prop where
  inProgress : m.inProgress = path
  results : ∀ pair change, (pair, change) ∈ m.results →
    ∀ label, plainTypes old new allow [] label pair.1 pair.2 = .ok change

/-- From every faithful memory the step comes to `result` and leaves a faithful memory. -/
def Runs (old new : Layout) (allow : Bool) (path : List TypePair) (step : Step α)
    (result : Except Recursion α) : Prop :=
  ∀ m, Faithful old new allow path m →
    (step m).1 = result ∧ Faithful old new allow path (step m).2

lemma runs_pure (a : α) : Runs old new allow path (pure a) (pure a) :=
  fun _ faithful => ⟨rfl, faithful⟩

lemma runs_throw (cause : Recursion) :
    Runs old new allow path (throw cause : Step α) (.error cause) :=
  fun _ faithful => ⟨rfl, faithful⟩

lemma runs_get {next : Memory → Step α} {result : Except Recursion α}
    (others : ∀ m, Faithful old new allow path m → Runs old new allow path (next m) result) :
    Runs old new allow path (get >>= next) result :=
  fun m faithful => others m faithful m faithful

lemma runs_modify {change : Memory → Memory}
    (keeps : ∀ m, Faithful old new allow path m → Faithful old new allow path (change m)) :
    Runs old new allow path (modify change) (pure ()) :=
  fun m faithful => ⟨rfl, keeps m faithful⟩

/-- A result may be remembered if the plain recursion has it for the pair alone. -/
lemma runs_remember {o n : TypeId} {change : Option Change}
    (alone : ∀ label, plainTypes old new allow [] label o n = .ok change) :
    Runs old new allow path (modify fun memory : Memory =>
      { memory with results := ((o, n), change) :: memory.results }) (pure ()) := by
  refine runs_modify fun m faithful => ⟨faithful.inProgress, fun pair c known label => ?_⟩
  rcases List.mem_cons.1 known with here | known
  · obtain ⟨rfl, rfl⟩ := Prod.mk.inj here
    exact alone label
  · exact faithful.results pair c known label

lemma runs_bind {step : Step α} {next : α → Step β} {result : Except Recursion α}
    {next' : α → Except Recursion β} (first : Runs old new allow path step result)
    (others : ∀ a, result = .ok a → Runs old new allow path (next a) (next' a)) :
    Runs old new allow path (step >>= next) (result >>= next') := by
  intro m faithful
  obtain ⟨ends, after⟩ := first m faithful
  have parts : (step >>= next) m = ExceptT.bindCont next (step m).1 (step m).2 := rfl
  rw [parts, ends]
  cases result with
  | error cause => exact ⟨rfl, after⟩
  | ok a => exact others a rfl _ after

lemma runs_whileComparing {pair : TypePair} {step : Step α} {result : Except Recursion α}
    (inside : Runs old new allow (pair :: path) step result) :
    Runs old new allow path (whileComparing pair step) result := by
  intro m faithful
  have entered : Faithful old new allow (pair :: path)
      { m with inProgress := pair :: m.inProgress } :=
    ⟨by rw [faithful.inProgress], faithful.results⟩
  obtain ⟨ends, after⟩ := inside _ entered
  refine ⟨ends, ?_, after.results⟩
  change List.erase _ pair = path
  rw [after.inProgress, List.erase_cons_head]

lemma fields_runs {F : Type} [Field F] {types : TypeComparison} {types' : PlainComparison}
    {os ns : List F} (inside : ∀ a b, (a, b) ∈ os.zip ns → Runs old new allow path
      (types (Field.label b) (Field.type a) (Field.type b))
      (types' (Field.label b) (Field.type a) (Field.type b))) :
    Runs old new allow path (fields types os ns) (plainFields types' os ns) := by
  induction os generalizing ns with
  | nil =>
    simp only [fields, plainFields]
    exact runs_pure _
  | cons o os ih =>
    cases ns with
    | nil =>
      simp only [fields, plainFields]
      exact runs_pure _
    | cons n ns =>
      simp only [fields, plainFields]
      refine runs_bind (inside o n List.mem_cons_self) fun change _ => ?_
      have others := ih fun a b place => inside a b (List.mem_cons_of_mem _ place)
      exact runs_bind others fun rest _ => runs_pure _

lemma followRule_runs {types : TypeComparison} {types' : PlainComparison} {label : String}
    {o n : TypeId} {rule : Rule} (inside : ∀ label k k',
      rule.Asks (fun x y => ∃ label, types' label x y = .ok none) k k' →
        Runs old new allow path (types label k k') (types' label k k')) :
    Runs old new allow path (followRule allow types label o n rule)
      (plainRule allow types' label o n rule) := by
  cases rule with
  | compatible => exact runs_pure _
  | incompatible reason => exact runs_pure _
  | unknownMembers =>
    cases allow with
    | false => exact runs_pure _
    | true => exact fun m faithful => ⟨rfl, faithful.inProgress, faithful.results⟩
  | members os ns =>
    refine runs_bind (fields_runs fun a b place => inside _ _ _ (.member place)) fun ops _ => ?_
    cases ops with
    | nil => exact runs_pure _
    | cons op ops => exact runs_pure _
  | mapping ok nk ov nv =>
    refine runs_bind (inside _ _ _ .key) fun keys first => ?_
    cases keys with
    | some _ => exact runs_pure _
    | none => exact runs_bind (inside _ _ _ (.value ⟨_, first⟩)) fun inner _ => runs_pure _
  | element oe ne => exact runs_bind (inside _ _ _ .element) fun inner _ => runs_pure _

lemma types_eq_levels (old new : Layout) (allow : Bool) (fuel : Nat) :
    types old new allow fuel = (level old new allow)^[fuel] (types old new allow 0) := by
  induction fuel with
  | zero => rfl
  | succ fuel ih =>
    rw [Function.iterate_succ_apply', ← ih]
    funext label o n
    rw [types, level]
    refine bind_congr fun memory => ?_
    cases memory.results.lookup (o, n) with
    | none => simp only [List.contains_iff_mem, Option.elim_none]
    | some change => rfl

/-- A level of the comparison does as the plain recursion does, if the pairs it is inside of all
lead to its pair: then none of them is met behind a remembered result. -/
lemma level_runs {inside : TypeComparison} {label : String} {o n : TypeId}
    (below : ∀ q ∈ path, Relation.TransGen (LeadsTo old new allow) q (o, n))
    (deeper : (o, n) ∉ path → ∀ label k k', (o, n) ∈ registeredPairs old new →
      LeadsTo old new allow (o, n) (k, k') → Runs old new allow ((o, n) :: path)
        (inside label k k') (plainTypes old new allow ((o, n) :: path) label k k')) :
    Runs old new allow path (level old new allow inside label o n)
      (plainTypes old new allow path label o n) := by
  refine runs_get fun m faithful => ?_
  cases found : m.results.lookup (o, n) with
  | some change =>
    obtain ⟨_, _, parts, _⟩ := List.lookup_eq_some_iff.1 found
    have ended := faithful.results (o, n) change (by simp [parts])
    have result : plainTypes old new allow path label o n = .ok change := by
      refine plainTypes_deeper (ended label) fun q passed reached => ?_
      exact not_cyclic_of_ends (ended label) (.trans_right reached (below q passed))
    rw [result]
    exact runs_pure _
  | none =>
    by_cases met : (o, n) ∈ path
    · rw [plainTypes_met met]
      simp only [List.contains_iff_mem, faithful.inProgress, met, if_true]
      exact runs_throw _
    · simp only [List.contains_iff_mem, faithful.inProgress, met, if_false]
      have rule : Runs old new allow path (whileComparing (o, n) (followRule allow inside label o n
          (Rule.ofTypes old new o n))) (plainTypes old new allow path label o n) := by
        rw [plainTypes_fresh met]
        refine runs_whileComparing (followRule_runs fun label k k' asks => ?_)
        exact deeper met label k k' (registered_of_asks asks) (leadsTo_of_asks asks)
      rw [← bind_pure (plainTypes old new allow path label o n)]
      refine runs_bind rule fun change ended => ?_
      have keeps : Runs old new allow path (modify fun memory : Memory =>
          { memory with results := ((o, n), change) :: memory.results }) (pure ()) :=
        runs_remember fun _ => plainTypes_anyPath ended (List.nil_subset _)
      exact runs_bind keeps fun _ _ => runs_pure change

/-- With more levels than there are pairs left, a comparison does as the plain recursion does,
whatever lies further in. -/
lemma levels_run (further : TypeComparison) {levels : Nat} {label : String} {o n : TypeId}
    (enough : (registeredPairs old new \ path.toFinset).card < levels)
    (below : ∀ q ∈ path, Relation.TransGen (LeadsTo old new allow) q (o, n)) :
    Runs old new allow path ((level old new allow)^[levels] further label o n)
      (plainTypes old new allow path label o n) := by
  induction levels generalizing path label o n with
  | zero => omega
  | succ levels ih =>
    rw [Function.iterate_succ_apply']
    refine level_runs below fun fresh label k k' registered leads => ih ?_ ?_
    · have fewer := fewer_left registered fresh
      omega
    · intro q passed
      rcases List.mem_cons.1 passed with rfl | passed
      · exact .single leads
      · exact .tail (below q passed) leads

lemma registered_lt_fuel (c : Comparator) :
    (registeredPairs c.old c.new \ ([] : List TypePair).toFinset).card < c.fuel := by
  have olds : c.old.types.keys.toFinset.card ≤ c.old.types.size :=
    (List.toFinset_card_le _).trans_eq (List.length_map _)
  have news : c.new.types.keys.toFinset.card ≤ c.new.types.size :=
    (List.toFinset_card_le _).trans_eq (List.length_map _)
  rw [List.toFinset_nil, Finset.sdiff_empty, registeredPairs, Finset.card_product, Comparator.fuel]
  exact Nat.lt_succ_of_le (Nat.mul_le_mul olds news)

/-- Unrolled as often as its fuel says, a comparator does as the plain recursion does. -/
lemma storage_runs (c : Comparator) (further : TypeComparison) {levels : Nat}
    (enough : c.fuel ≤ levels) :
    Runs c.old c.new c.allowUnknown []
      (fields ((level c.old c.new c.allowUnknown)^[levels] further) c.old.storage c.new.storage)
      (plainFields (plainTypes c.old c.new c.allowUnknown []) c.old.storage c.new.storage) :=
  fields_runs fun _ _ _ => levels_run further ((registered_lt_fuel c).trans_le enough)
    fun _ passed => nomatch passed

lemma differences_run {m : Memory} (faithful : Faithful old new allow [] m) :
    (Comparator.mk old new allow m).differences.1 = plainDifferences old new allow ∧
      Faithful old new allow [] (Comparator.mk old new allow m).differences.2.memory := by
  obtain ⟨result, after⟩ := storage_runs ⟨old, new, allow, m⟩ (types old new allow 0) le_rfl
    m faithful
  rw [← types_eq_levels] at result after
  exact ⟨congrArg (Except.map _) result, after⟩

lemma faithful_fresh : Faithful old new allow [] .fresh := ⟨rfl, fun _ _ h => nomatch h⟩

lemma compareLayouts_eq_plain (old new : Layout) (allow : Bool) :
    compareLayouts old new allow = plainDifferences old new allow :=
  (differences_run faithful_fresh).1

lemma afterRuns_faithful (old new : Layout) (allow : Bool) (runs : Nat) :
    ∃ m, Faithful old new allow [] m ∧
      Comparator.afterRuns old new allow runs = ⟨old, new, allow, m⟩ := by
  induction runs with
  | zero => exact ⟨.fresh, faithful_fresh, rfl⟩
  | succ runs ih =>
    obtain ⟨m, faithful, before⟩ := ih
    refine ⟨_, (differences_run faithful).2, ?_⟩
    rw [Comparator.afterRuns, before]
    rfl

end Memory

/--
After any number of comparisons a comparator finds what the plain recursion finds,
operations or error. No pair is left open, and what is remembered of a pair is what
the plain recursion finds for that pair alone.
-/
theorem afterRuns_agrees_with_plain (old new : Layout) (allow : Bool) (runs : Nat) :
    (Comparator.afterRuns old new allow runs).differences.1 = plainDifferences old new allow ∧
      (Comparator.afterRuns old new allow runs).differences.2.memory.inProgress = [] ∧
      ∀ pair change, (pair, change) ∈
        (Comparator.afterRuns old new allow runs).differences.2.memory.results →
          ∀ label, plainTypes old new allow [] label pair.1 pair.2 = .ok change := by
  obtain ⟨m, faithful, reached⟩ := afterRuns_faithful old new allow runs
  rw [reached]
  obtain ⟨result, after⟩ := differences_run faithful
  exact ⟨result, after.inProgress, after.results⟩

/-- A vault with two variables of one struct, which is compared once. -/
def twoPairs : Layout :=
  ⟨[⟨"Vault", "left", "t_struct(Pair)storage", 0, 0, none, none⟩,
    ⟨"Vault", "right", "t_struct(Pair)storage", 1, 0, none, none⟩],
   Table.ofList [("t_struct(Pair)storage", ⟨"struct Pair", 32,
      .struct (some [⟨"held", "t_uint128"⟩, ⟨"owed", "t_uint128"⟩])⟩),
    ("t_uint128", ⟨"uint128", 16, .value⟩)]⟩

theorem twoPairs_agrees_with_plain :
    (("t_struct(Pair)storage", "t_struct(Pair)storage"), none) ∈
        (Comparator.afterRuns twoPairs twoPairs false 1).differences.2.memory.results ∧
      (Comparator.afterRuns twoPairs twoPairs false 1).differences.1 =
        plainDifferences twoPairs twoPairs false ∧
      plainTypes twoPairs twoPairs false [] "left" "t_struct(Pair)storage"
        "t_struct(Pair)storage" = .ok none := by
  have listed : ((Comparator.afterRuns twoPairs twoPairs false 1).differences.2.memory.results.any
      fun e => e.1 = ("t_struct(Pair)storage", "t_struct(Pair)storage") && e.2.isNone) = true := by
    decide +kernel
  obtain ⟨⟨pair, change⟩, known, here⟩ := List.any_eq_true.1 listed
  rw [Bool.and_eq_true, decide_eq_true_eq, Option.isNone_iff_eq_none] at here
  obtain ⟨rfl, rfl⟩ : pair = _ ∧ change = none := here
  have agrees := afterRuns_agrees_with_plain twoPairs twoPairs false 1
  exact ⟨known, agrees.1, agrees.2.2 _ _ known "left"⟩

end Comparison

end UpgradeSafety
