import UpgradeSafety.Proofs.Comparison.Cycles

/-!
# What it takes to let unknown members pass

A comparison that lets types with unknown members pass, beside a strict one. They
take the same steps up to the first type that is let pass. From there on they may
look at different types, but it is recorded that one was let pass, and at every
level further out the strict comparison has a difference to report or has failed.
-/

namespace UpgradeSafety

namespace Comparison

section Steps

variable {α β : Type} {m : Memory} {reports : α → Prop} {reports' : β → Prop}

/--
How a strict and a lenient step come out that are taken from one memory: in the same
way, with nothing let pass, or else something was and the strict step, if it does not
fail, has something to report.
-/
inductive GoesAlong (m : Memory) (reports : α → Prop) (strict lenient : Step α) : Prop where
  | same (equal : lenient m = strict m) (unset : (strict m).2.letUnknownPass = false)
  | letPass (recorded : (lenient m).2.letUnknownPass = true)
      (reported : Yields strict m fun a _ => reports a)

/-- What was let pass before the step stays recorded. -/
def Records (step : Step α) : Prop :=
  ∀ m : Memory, m.letUnknownPass = true → (step m).2.letUnknownPass = true

lemma records_pure (a : α) : Records (pure a) := fun _ recorded => recorded

lemma records_throw (cause : Recursion) : Records (throw cause : Step α) :=
  fun _ recorded => recorded

lemma records_get {next : Memory → Step α} (rest : ∀ m, Records (next m)) :
    Records (get >>= next) := fun m recorded => rest m m recorded

lemma records_bind {step : Step α} {next : α → Step β} (first : Records step)
    (rest : ∀ a, Records (next a)) : Records (step >>= next) := by
  intro m recorded
  have parts : (step >>= next) m = ExceptT.bindCont next (step m).1 (step m).2 := rfl
  have between := first m recorded
  rw [parts]
  cases (step m).1 with
  | error cause => exact between
  | ok a => exact rest a _ between

lemma records_whileComparing {pair : TypePair} {step : Step α} (inside : Records step) :
    Records (whileComparing pair step) := fun _ recorded => inside _ recorded

lemma goesAlong_pure (a : α) (unset : m.letUnknownPass = false) :
    GoesAlong m reports (pure a) (pure a) := .same rfl unset

lemma goesAlong_get {strict lenient : Memory → Step α}
    (rest : GoesAlong m reports (strict m) (lenient m)) :
    GoesAlong m reports (get >>= strict) (get >>= lenient) := by
  rcases rest with ⟨equal, unset⟩ | ⟨recorded, reported⟩
  · exact .same equal unset
  · exact .letPass recorded reported

/-- What the first steps report is reported by the whole, whatever is done next. -/
lemma goesAlong_bind {strict lenient : Step α} {next next' : α → Step β}
    (first : GoesAlong m reports strict lenient)
    (rest : ∀ a m, m.letUnknownPass = false → GoesAlong m reports' (next a) (next' a))
    (passedOn : ∀ a m, reports a → Yields (next a) m fun b _ => reports' b)
    (lasting : ∀ a, Records (next' a)) :
    GoesAlong m reports' (strict >>= next) (lenient >>= next') := by
  have parts : (strict >>= next) m = ExceptT.bindCont next (strict m).1 (strict m).2 := rfl
  have parts' : (lenient >>= next') m = ExceptT.bindCont next' (lenient m).1 (lenient m).2 := rfl
  rcases first with ⟨equal, unset⟩ | ⟨recorded, reported⟩
  · rw [equal] at parts'
    cases result : (strict m).1 with
    | error cause =>
      rw [result] at parts parts'
      refine .same (parts'.trans parts.symm) ?_
      rw [parts]
      exact unset
    | ok a =>
      rw [result] at parts parts'
      rcases rest a (strict m).2 unset with ⟨equal, unset⟩ | ⟨recorded, reported⟩
      · refine .same (parts'.trans (equal.trans parts.symm)) ?_
        rw [parts]
        exact unset
      · refine .letPass ?_ ?_
        · rw [parts']
          exact recorded
        · intro b after ended
          exact reported b after (parts.symm.trans ended)
  · refine .letPass ?_ ?_
    · rw [parts']
      cases (lenient m).1 with
      | error cause => exact recorded
      | ok a => exact lasting a _ recorded
    · exact yields_bind (reported.mono fun a between => passedOn a between)

lemma goesAlong_whileComparing {pair : TypePair} {strict lenient : Step α}
    (inside : GoesAlong { m with inProgress := pair :: m.inProgress } reports strict lenient) :
    GoesAlong m reports (whileComparing pair strict) (whileComparing pair lenient) := by
  rcases inside with ⟨equal, unset⟩ | ⟨recorded, reported⟩
  · refine .same ?_ unset
    rw [whileComparing, whileComparing, equal]
  · exact .letPass recorded (yields_whileComparing reported)

end Steps

/-! ## Both comparisons -/

section Fields

variable {F : Type} [Field F] {strict lenient : TypeComparison} {m : Memory}

/-- Operations that are not all additions. -/
def Differs (ops : List (Operation F Change)) : Prop := ∃ op ∈ ops, op.isAppend = false

lemma fields_records (each : ∀ label o n, Records (lenient label o n)) (os ns : List F) :
    Records (fields lenient os ns) := by
  induction os generalizing ns with
  | nil =>
    simp only [fields]
    exact records_pure _
  | cons o os ih =>
    cases ns with
    | nil =>
      simp only [fields]
      exact records_pure _
    | cons n ns =>
      simp only [fields]
      apply records_bind (each _ _ _)
      intro change
      exact records_bind (ih ns) fun _ => records_pure _

/-- A field whose type differs is reported, whatever the fields behind it come to. -/
lemma fields_goesAlong (unset : m.letUnknownPass = false)
    (each : ∀ m label o n, m.letUnknownPass = false →
      GoesAlong m (· ≠ none) (strict label o n) (lenient label o n))
    (lasting : ∀ label o n, Records (lenient label o n)) (os ns : List F) :
    GoesAlong m Differs (fields strict os ns) (fields lenient os ns) := by
  induction os generalizing ns m with
  | nil =>
    simp only [fields]
    exact goesAlong_pure _ unset
  | cons o os ih =>
    cases ns with
    | nil =>
      simp only [fields]
      exact goesAlong_pure _ unset
    | cons n ns =>
      simp only [fields]
      refine goesAlong_bind (each m _ _ _ unset) (fun change m unset => ?_)
        (fun change m differs => ?_)
        (fun change => records_bind (fields_records lasting os ns) fun _ => records_pure _)
      · refine goesAlong_bind (ih unset ns) (fun rest m unset => goesAlong_pure _ unset) ?_
          (fun _ => records_pure _)
        rintro rest m ⟨op, member, notAppend⟩
        exact yields_pure ⟨op, List.mem_append_right _ member, notAppend⟩
      · cases found : fieldOperation o n change with
        | none => exact absurd (fieldOperation_none found).1 differs
        | some op =>
          refine yields_bind fun rest between _ => yields_pure ?_
          exact ⟨op, List.mem_cons_self, fieldOperation_append found⟩

end Fields

section Rules

variable {strict lenient : TypeComparison} {m : Memory} {label : String} {o n : TypeId}

lemma followRule_records (each : ∀ label o n, Records (lenient label o n)) (allow : Bool)
    (rule : Rule) : Records (followRule allow lenient label o n rule) := by
  cases rule with
  | compatible => exact records_pure _
  | incompatible reason => exact records_pure _
  | unknownMembers =>
    cases allow with
    | false => exact records_pure _
    | true => exact fun _ _ => rfl
  | members os ns =>
    apply records_bind (fields_records each os ns)
    intro ops
    cases ops <;> exact records_pure _
  | mapping ok nk ov nv =>
    apply records_bind (each _ _ _)
    intro keys
    cases keys with
    | some change => exact records_pure _
    | none => exact records_bind (each _ _ _) fun _ => records_pure _
  | element oe ne => exact records_bind (each _ _ _) fun _ => records_pure _

/-- A difference inside a pair of types is a difference between them. -/
lemma followRule_goesAlong (unset : m.letUnknownPass = false)
    (each : ∀ m label o n, m.letUnknownPass = false →
      GoesAlong m (· ≠ none) (strict label o n) (lenient label o n))
    (lasting : ∀ label o n, Records (lenient label o n)) (rule : Rule) :
    GoesAlong m (· ≠ none) (followRule false strict label o n rule)
      (followRule true lenient label o n rule) := by
  cases rule with
  | compatible => exact goesAlong_pure _ unset
  | incompatible reason => exact goesAlong_pure _ unset
  | unknownMembers =>
    exact .letPass rfl (yields_pure (Option.some_ne_none _))
  | members os ns =>
    refine goesAlong_bind (fields_goesAlong unset each lasting os ns) (fun ops m unset => ?_) ?_
      (fun ops => ?_)
    · cases ops <;> exact goesAlong_pure _ unset
    · rintro ops m ⟨op, member, _⟩
      cases ops with
      | nil => cases member
      | cons first rest => exact yields_pure (Option.some_ne_none _)
    · cases ops <;> exact records_pure _
  | mapping ok nk ov nv =>
    refine goesAlong_bind (each m _ _ _ unset) (fun keys m unset => ?_) ?_ (fun keys => ?_)
    · cases keys with
      | some change => exact goesAlong_pure _ unset
      | none =>
        refine goesAlong_bind (each m _ _ _ unset) (fun inner m unset => goesAlong_pure _ unset) ?_
          (fun _ => records_pure _)
        intro inner m differs
        exact yields_pure (mt Option.map_eq_none_iff.1 differs)
    · intro keys m differs
      cases keys with
      | none => exact absurd rfl differs
      | some inner => exact yields_pure (Option.some_ne_none _)
    · cases keys with
      | some change => exact records_pure _
      | none => exact records_bind (lasting _ _ _) fun _ => records_pure _
  | element oe ne =>
    refine goesAlong_bind (each m _ _ _ unset) (fun inner m unset => goesAlong_pure _ unset) ?_
      (fun _ => records_pure _)
    intro inner m differs
    exact yields_pure (mt Option.map_eq_none_iff.1 differs)

end Rules

section Types

lemma types_records (old new : Layout) (allow : Bool) (fuel : Nat) (label : String)
    (o n : TypeId) : Records (types old new allow fuel label o n) := by
  induction fuel generalizing label o n with
  | zero =>
    rw [types]
    refine records_get fun memory => ?_
    cases memory.results.lookup (o, n) with
    | some change => exact records_pure _
    | none =>
      simp only [ite_self]
      exact records_throw _
  | succ fuel ih =>
    rw [types]
    refine records_get fun memory => ?_
    cases memory.results.lookup (o, n) with
    | some change => exact records_pure _
    | none =>
      by_cases met : (o, n) ∈ memory.inProgress
      · simp only [if_pos met]
        exact records_throw _
      · simp only [if_neg met]
        apply records_bind (records_whileComparing (followRule_records ih allow _))
        intro change
        exact records_bind (fun _ recorded => recorded) fun _ => records_pure _

/-- Both comparisons look up the same results and the same pairs in progress. -/
lemma types_goesAlong (old new : Layout) (fuel : Nat) (m : Memory) (label : String)
    (o n : TypeId) (unset : m.letUnknownPass = false) :
    GoesAlong m (· ≠ none) (types old new false fuel label o n)
      (types old new true fuel label o n) := by
  induction fuel generalizing m label o n with
  | zero =>
    rw [types, types]
    apply goesAlong_get
    cases m.results.lookup (o, n) with
    | some change => exact goesAlong_pure _ unset
    | none =>
      simp only [ite_self]
      exact .same rfl unset
  | succ fuel ih =>
    rw [types, types]
    apply goesAlong_get
    cases m.results.lookup (o, n) with
    | some change => exact goesAlong_pure _ unset
    | none =>
      by_cases met : (o, n) ∈ m.inProgress
      · simp only [if_pos met]
        exact .same rfl unset
      · simp only [if_neg met]
        have inside : GoesAlong { m with inProgress := (o, n) :: m.inProgress } (· ≠ none)
            (followRule false (types old new false fuel) label o n (Rule.ofTypes old new o n))
            (followRule true (types old new true fuel) label o n (Rule.ofTypes old new o n)) :=
          followRule_goesAlong (m := { m with inProgress := (o, n) :: m.inProgress }) unset ih
            (types_records old new true fuel) _
        refine goesAlong_bind (goesAlong_whileComparing inside) (fun change m unset => ?_)
          (fun change m differs => ?_) (fun change => ?_)
        · exact .same rfl unset
        · exact yields_bind (yields_modify (yields_pure differs))
        · exact records_bind (fun _ recorded => recorded) fun _ => records_pure _

end Types

/-- The comparisons of all storage agree with nothing let pass, or else something was let pass
and the strict one is not silent. -/
lemma outcomes_agree_or_letPass (old new : Layout) :
    (compareLayouts old new true = compareLayouts old new false ∧
        (Comparator.fresh old new true).differences.2.letUnknownPass = false) ∨
      ((Comparator.fresh old new true).differences.2.letUnknownPass = true ∧
        compareLayouts old new false ≠ .ok []) := by
  have both : GoesAlong .fresh Differs
      (fields (types old new false (Comparator.fresh old new false).fuel) old.storage new.storage)
      (fields (types old new true (Comparator.fresh old new false).fuel) old.storage new.storage) :=
    fields_goesAlong rfl (types_goesAlong old new _) (types_records old new true _) _ _
  rcases both with ⟨equal, unset⟩ | ⟨recorded, reported⟩
  · left
    constructor
    · exact congrArg (fun run => run.1.map (List.filter fun op => !op.isAppend)) equal
    · exact (congrArg (fun run => run.2.letUnknownPass) equal).trans unset
  · refine Or.inr ⟨recorded, fun silent => ?_⟩
    change ((fields (types old new false (Comparator.fresh old new false).fuel) old.storage
      new.storage .fresh).1.map (List.filter fun op => !op.isAppend)) = .ok [] at silent
    cases ran : fields (types old new false (Comparator.fresh old new false).fuel) old.storage
        new.storage .fresh with
    | mk result after =>
      rw [ran] at silent
      cases result with
      | error cause => cases silent
      | ok ops =>
        obtain ⟨op, member, notAppend⟩ := reported ops after ran
        have kept := List.filter_eq_nil_iff.1 (Except.ok.inj silent) op member
        rw [notAppend] at kept
        exact kept rfl

end Comparison

/--
A comparison that lets unknown members pass reports nothing without having let any
pass exactly if a strict one reports nothing. As long as none were let pass the two
come to the same, operations or error.
-/
theorem nothing_let_pass_iff_strictly_silent (old new : Layout) :
    (compareLayouts old new true = .ok [] ∧
        (Comparator.fresh old new true).differences.2.letUnknownPass = false ↔
      compareLayouts old new false = .ok []) ∧
    ((Comparator.fresh old new true).differences.2.letUnknownPass = false →
      compareLayouts old new true = compareLayouts old new false) := by
  rcases Comparison.outcomes_agree_or_letPass old new with ⟨agree, unset⟩ | ⟨recorded, reported⟩
  · rw [agree, unset]
    simp
  · rw [recorded]
    simp [reported]

/-- A list whose nodes are kept by a state, with the members of the state if they are known. -/
def nodesByState (states : Option (List String)) : Layout :=
  ⟨[⟨"List", "root", "t_struct(Node)storage", 0, 0, none, none⟩],
   Table.ofList [("t_enum(State)", ⟨"enum State", 1, .enum states⟩),
    ("t_struct(Node)storage", ⟨"struct Node", 32,
      .struct (some [⟨"next", "t_mapping(t_enum(State),t_struct(Node)storage)"⟩])⟩),
    ("t_mapping(t_enum(State),t_struct(Node)storage)", ⟨"mapping(enum State => struct Node)", 32,
      .mapping "t_enum(State)" "t_struct(Node)storage"⟩)]⟩

/-- With known states both comparisons meet the recursion; else only the lenient one gets to it. -/
theorem nodesByState_compared :
    (Comparator.fresh (nodesByState (some ["Open"])) (nodesByState (some ["Open"]))
        true).differences.2.letUnknownPass = false ∧
      compareLayouts (nodesByState (some ["Open"])) (nodesByState (some ["Open"])) true =
        compareLayouts (nodesByState (some ["Open"])) (nodesByState (some ["Open"])) false ∧
      (Comparator.fresh (nodesByState none) (nodesByState none)
        true).differences.2.letUnknownPass = true ∧
      compareLayouts (nodesByState none) (nodesByState none) true =
        .error ⟨"t_struct(Node)storage", "t_struct(Node)storage", "next"⟩ ∧
      compareLayouts (nodesByState none) (nodesByState none) false ≠ .ok [] := by
  have unset : (Comparator.fresh (nodesByState (some ["Open"])) (nodesByState (some ["Open"]))
      true).differences.2.letUnknownPass = false := by decide +kernel
  have recorded : (Comparator.fresh (nodesByState none) (nodesByState none)
      true).differences.2.letUnknownPass = true := by decide +kernel
  have known := nothing_let_pass_iff_strictly_silent (nodesByState (some ["Open"]))
    (nodesByState (some ["Open"]))
  have unknown := nothing_let_pass_iff_strictly_silent (nodesByState none) (nodesByState none)
  refine ⟨unset, known.2 unset, recorded, Comparison.Outcome.eq_error (by decide +kernel), ?_⟩
  intro silent
  have contrary := (unknown.1.2 silent).2
  rw [recorded] at contrary
  cases contrary

end UpgradeSafety
