import Mathlib.Data.List.Forall2
import Mathlib.Tactic.Lemma
import UpgradeSafety.Comparison.Comparator

/-!
# What an empty report means

A comparator that reports nothing has found a relation between the types of the
two layouts that holds of the types at matching places and is closed under what
the rules ask for. The relation may be circular as far as the rules go; that a
pair in progress is never taken for granted plays no part here.
-/

namespace UpgradeSafety

/-- Fields match one by one: they have the same labels and related types. -/
def FieldsMatch {F : Type} [Field F] (related : TypeId → TypeId → Prop) (old new : List F) : Prop :=
  List.Forall₂ (fun o n => Comparison.sameLabel o n = true ∧
    related (Field.type o) (Field.type n)) old new

/-- A rule accepts its pair, provided that the related types may be exchanged. -/
def Rule.AcceptedBy (allow : Bool) (related : TypeId → TypeId → Prop) : Rule → Prop
  | .compatible => True
  | .incompatible _ => False
  | .unknownMembers => allow = true
  | .members old new => FieldsMatch related old new
  | .mapping oldKey newKey oldValue newValue => related oldKey newKey ∧ related oldValue newValue
  | .element old new => related old new

/-- A relation that is closed under the rules and matches the storage of two layouts. -/
structure Exchangeable (old new : Layout) (allow : Bool) (related : TypeId → TypeId → Prop) :
    Prop where
  closed : ∀ {o n}, related o n → (Rule.ofTypes old new o n).AcceptedBy allow related
  storage : ∃ matched added, new.storage = matched ++ added ∧
    FieldsMatch related old.storage matched

lemma FieldsMatch.mono {F : Type} [Field F] {related wider : TypeId → TypeId → Prop}
    (widen : ∀ o n, related o n → wider o n) {old new : List F}
    (h : FieldsMatch related old new) : FieldsMatch wider old new :=
  h.imp fun _ _ ⟨label, type⟩ => ⟨label, widen _ _ type⟩

lemma Rule.AcceptedBy.mono {allow : Bool} {related wider : TypeId → TypeId → Prop}
    (widen : ∀ o n, related o n → wider o n) {rule : Rule}
    (h : rule.AcceptedBy allow related) : rule.AcceptedBy allow wider := by
  cases rule with
  | compatible => trivial
  | incompatible reason => exact h
  | unknownMembers => exact h
  | members old new => exact FieldsMatch.mono widen h
  | mapping oldKey newKey oldValue newValue => exact ⟨widen _ _ h.1, widen _ _ h.2⟩
  | element old new => exact widen _ _ h

namespace Comparison

/-- Whether nothing is reported. -/
def Outcome.isSilent : Outcome → Bool
  | .ok [] => true
  | _ => false

lemma Outcome.eq_ok_nil {outcome : Outcome} (h : outcome.isSilent = true) : outcome = .ok [] := by
  cases outcome with
  | error cause => cases h
  | ok ops =>
    cases ops with
    | nil => rfl
    | cons op ops => cases h

/-! ## Steps of a comparator -/

section Steps

variable {α β : Type} {m : Memory}

/-- If a step comes to an end without meeting a recursion, it ends as `post` says. -/
def Yields (step : Step α) (m : Memory) (post : α → Memory → Prop) : Prop :=
  ∀ a after, step m = (.ok a, after) → post a after

lemma Yields.mono {step : Step α} {post post' : α → Memory → Prop} (h : Yields step m post)
    (ends : ∀ a after, post a after → post' a after) : Yields step m post' :=
  fun a after ran => ends a after (h a after ran)

lemma yields_pure {a : α} {post : α → Memory → Prop} (h : post a m) :
    Yields (pure a) m post := by
  intro b after ran
  cases ran
  exact h

lemma yields_throw {cause : Recursion} {post : α → Memory → Prop} :
    Yields (throw cause : Step α) m post := by
  intro a after ran
  cases ran

lemma yields_get {post : Memory → Memory → Prop} (h : post m m) : Yields get m post := by
  intro a after ran
  cases ran
  exact h

lemma yields_modify {change : Memory → Memory} {post : Unit → Memory → Prop}
    (h : post () (change m)) : Yields (modify change) m post := by
  intro a after ran
  cases ran
  exact h

lemma yields_bind {step : Step α} {next : α → Step β} {post : β → Memory → Prop}
    (h : Yields step m fun a between => Yields (next a) between post) :
    Yields (step >>= next) m post := by
  intro b after ran
  have parts : (step >>= next) m = ExceptT.bindCont next (step m).1 (step m).2 := rfl
  rw [parts] at ran
  cases first : step m with
  | mk result between =>
    rw [first] at ran
    cases result with
    | error cause => cases ran
    | ok a => exact h a between first b after ran

lemma yields_whileComparing {pair : TypePair} {step : Step α} {post : α → Memory → Prop}
    (h : Yields step { m with inProgress := pair :: m.inProgress } fun a after =>
      post a { after with inProgress := after.inProgress.erase pair }) :
    Yields (whileComparing pair step) m post := by
  intro a after ran
  rw [whileComparing] at ran
  cases first : step { m with inProgress := pair :: m.inProgress } with
  | mk result between =>
    rw [first] at ran
    cases ran
    exact h a between first

end Steps

/-! ## What a comparator has accepted -/

section Acceptance

variable {old new : Layout} {allow : Bool} {m after : Memory}

/-- A pair of types was found to be exchangeable. -/
def Accepted (m : Memory) (o n : TypeId) : Prop := ((o, n), none) ∈ m.results

/-- Every accepted pair is accepted by its rule on the strength of accepted pairs. -/
def Sound (old new : Layout) (allow : Bool) (m : Memory) : Prop :=
  ∀ o n, Accepted m o n → (Rule.ofTypes old new o n).AcceptedBy allow (Accepted m)

/-- A sound comparator has learnt more and is still sound. -/
structure Learns (old new : Layout) (allow : Bool) (m after : Memory) : Prop where
  sound : Sound old new allow after
  keeps : m.results ⊆ after.results

lemma Learns.refl (sound : Sound old new allow m) : Learns old new allow m m :=
  ⟨sound, fun _ h => h⟩

lemma Learns.trans {between : Memory} (first : Learns old new allow m between)
    (second : Learns old new allow between after) : Learns old new allow m after :=
  ⟨second.sound, fun _ h => second.keeps (first.keeps h)⟩

lemma Learns.accepted (learns : Learns old new allow m after) :
    ∀ o n, Accepted m o n → Accepted after o n := fun _ _ h => learns.keeps h

/-- A new result is sound if it was accepted by its rule. -/
lemma Learns.remember (learns : Learns old new allow m after) {o n : TypeId}
    {change : Option Change}
    (accepts : change = none → (Rule.ofTypes old new o n).AcceptedBy allow (Accepted after)) :
    Learns old new allow m { after with results := ((o, n), change) :: after.results } := by
  have widen : ∀ x y, Accepted after x y →
      Accepted { after with results := ((o, n), change) :: after.results } x y :=
    fun _ _ h => List.mem_cons_of_mem _ h
  refine ⟨fun x y h => ?_, fun _ h => List.mem_cons_of_mem _ (learns.keeps h)⟩
  rcases List.mem_cons.1 h with new | old
  · obtain ⟨pair, result⟩ := Prod.mk.inj new
    cases pair
    exact (accepts result.symm).mono widen
  · exact (learns.sound x y old).mono widen

/-- A way to compare types that learns whatever it accepts. -/
def Reliable (old new : Layout) (allow : Bool) (types : TypeComparison) : Prop :=
  ∀ label o n m, Sound old new allow m → Yields (types label o n) m fun change after =>
    Learns old new allow m after ∧ (change = none → Accepted after o n)

lemma fieldOperation_append {F : Type} [Field F] {o n : F} {change : Option Change}
    {op : Operation F Change} (h : fieldOperation o n change = some op) :
    op.isAppend = false := by
  cases change with
  | none =>
    simp only [fieldOperation] at h
    split at h <;> cases h
    rfl
  | some change =>
    simp only [fieldOperation] at h
    split at h <;> cases h <;> rfl

lemma fieldOperation_none {F : Type} [Field F] {o n : F} {change : Option Change}
    (h : fieldOperation o n change = none) : change = none ∧ sameLabel o n = true := by
  cases change with
  | none =>
    refine ⟨rfl, ?_⟩
    by_contra differs
    simp [fieldOperation, differs] at h
  | some change =>
    simp only [fieldOperation] at h
    split at h <;> cases h

/-- Where only additions are reported, the old fields match the first of the new ones. -/
lemma fields_accepts {F : Type} [Field F] {types : TypeComparison}
    (reliable : Reliable old new allow types) (os ns : List F) (sound : Sound old new allow m) :
    Yields (fields types os ns) m fun ops after => Learns old new allow m after ∧
      (ops.filter (fun op => !op.isAppend) = [] → ∃ matched added, ns = matched ++ added ∧
        ops = added.map .append ∧ FieldsMatch (Accepted after) os matched) := by
  induction os generalizing ns m with
  | nil =>
    simp only [fields]
    exact yields_pure ⟨.refl sound, fun _ => ⟨[], ns, rfl, rfl, .nil⟩⟩
  | cons o os ih =>
    cases ns with
    | nil =>
      simp only [fields]
      refine yields_pure ⟨.refl sound, fun none => ?_⟩
      simp [Operation.isAppend] at none
    | cons n ns =>
      simp only [fields]
      refine yields_bind ((reliable _ _ _ m sound).mono fun change between first => ?_)
      obtain ⟨learns, accepted⟩ := first
      refine yields_bind ((ih ns learns.sound).mono fun ops after rest => ?_)
      obtain ⟨learns', others⟩ := rest
      refine yields_pure ⟨learns.trans learns', fun none => ?_⟩
      rw [List.filter_append, List.append_eq_nil_iff] at none
      cases difference : fieldOperation o n change with
      | some op =>
        have notAppend := fieldOperation_append difference
        simp [difference, notAppend] at none
      | none =>
        obtain ⟨unchanged, label⟩ := fieldOperation_none difference
        obtain ⟨matched, added, parts, appends, matches'⟩ := others none.2
        refine ⟨n :: matched, added, by rw [parts]; rfl, by simpa using appends, .cons ?_ matches'⟩
        exact ⟨label, learns'.accepted _ _ (accepted unchanged)⟩

/-- A rule that reports no change accepts its pair. -/
lemma followRule_accepts {types : TypeComparison} (reliable : Reliable old new allow types)
    (label : String) (o n : TypeId) (rule : Rule) (sound : Sound old new allow m) :
    Yields (followRule allow types label o n rule) m fun change after =>
      Learns old new allow m after ∧ (change = none → rule.AcceptedBy allow (Accepted after)) := by
  cases rule with
  | compatible => exact yields_pure ⟨.refl sound, fun _ => trivial⟩
  | incompatible reason => exact yields_pure ⟨.refl sound, fun none => nomatch none⟩
  | unknownMembers =>
    rw [followRule]
    cases allow with
    | false => exact yields_pure ⟨.refl sound, fun none => nomatch none⟩
    | true =>
      refine yields_bind (yields_modify (yields_pure ⟨⟨sound, fun _ h => h⟩, fun _ => rfl⟩))
  | members os ns =>
    rw [followRule]
    refine yields_bind ((fields_accepts reliable os ns sound).mono fun ops after h => ?_)
    obtain ⟨learns, accepted⟩ := h
    cases ops with
    | nil =>
      refine yields_pure ⟨learns, fun _ => ?_⟩
      obtain ⟨matched, added, parts, appends, matches'⟩ := accepted rfl
      have none : added = [] := List.map_eq_nil_iff.1 appends.symm
      rw [none, List.append_nil] at parts
      exact parts ▸ matches'
    | cons op ops => exact yields_pure ⟨learns, fun none => nomatch none⟩
  | mapping oldKey newKey oldValue newValue =>
    rw [followRule]
    refine yields_bind ((reliable label oldKey newKey m sound).mono fun change between h => ?_)
    obtain ⟨learns, keys⟩ := h
    cases change with
    | some change => exact yields_pure ⟨learns, fun none => nomatch none⟩
    | none =>
      refine yields_bind ((reliable label oldValue newValue between learns.sound).mono
        fun inner after h => yields_pure ⟨learns.trans h.1, fun none => ?_⟩)
      have values := h.2 (Option.map_eq_none_iff.1 none)
      exact ⟨h.1.accepted _ _ (keys rfl), values⟩
  | element oldElement newElement =>
    rw [followRule]
    refine yields_bind ((reliable label oldElement newElement m sound).mono
      fun inner after h => yields_pure ⟨h.1, fun none => ?_⟩)
    exact h.2 (Option.map_eq_none_iff.1 none)

lemma accepted_of_lookup {o n : TypeId} (h : m.results.lookup (o, n) = some none) :
    Accepted m o n := by
  obtain ⟨before, after, parts, _⟩ := List.lookup_eq_some_iff.1 h
  rw [Accepted, parts]
  simp

/-- The comparison of types learns whatever it accepts, with any fuel. -/
lemma types_reliable (old new : Layout) (allow : Bool) (fuel : Nat) :
    Reliable old new allow (types old new allow fuel) := by
  induction fuel with
  | zero =>
    intro label o n m sound
    rw [types]
    refine yields_bind (yields_get ?_)
    cases found : m.results.lookup (o, n) with
    | some change =>
      exact yields_pure ⟨.refl sound, fun none => accepted_of_lookup (none ▸ found)⟩
    | none =>
      simp only [ite_self]
      exact yields_throw
  | succ fuel ih =>
    intro label o n m sound
    rw [types]
    refine yields_bind (yields_get ?_)
    cases found : m.results.lookup (o, n) with
    | some change =>
      exact yields_pure ⟨.refl sound, fun none => accepted_of_lookup (none ▸ found)⟩
    | none =>
      by_cases inProgress : (o, n) ∈ m.inProgress
      · simp only [inProgress, if_true]
        exact yields_throw
      · simp only [inProgress, if_false]
        refine yields_bind (yields_whileComparing ?_)
        have follows := followRule_accepts (m := { m with inProgress := (o, n) :: m.inProgress })
          ih label o n (Rule.ofTypes old new o n) sound
        refine follows.mono fun change after h => ?_
        refine yields_bind (yields_modify (yields_pure ⟨?_, fun none => ?_⟩))
        · have learns : Learns old new allow m
              { after with inProgress := after.inProgress.erase (o, n) } :=
            ⟨h.1.sound, h.1.keeps⟩
          exact learns.remember h.2
        · rw [Accepted, none]
          exact List.mem_cons_self

/-- Where nothing is reported, the types of the two layouts are related throughout. -/
lemma exchangeable (silent : compareLayouts old new allow = .ok []) :
    ∃ related, Exchangeable old new allow related := by
  have sound : Sound old new allow .fresh := fun _ _ h => nomatch h
  have run := fields_accepts (m := .fresh)
    (types_reliable old new allow (Comparator.fresh old new allow).fuel) old.storage new.storage
    sound
  have outcome : compareLayouts old new allow =
      (fields (types old new allow (Comparator.fresh old new allow).fuel) old.storage new.storage
        .fresh).1.map (List.filter fun op => !op.isAppend) := rfl
  rw [outcome] at silent
  cases ran : fields (types old new allow (Comparator.fresh old new allow).fuel) old.storage
      new.storage .fresh with
  | mk result after =>
    rw [ran] at silent
    cases result with
    | error cause => cases silent
    | ok ops =>
      obtain ⟨learns, accepted⟩ := run ops after ran
      obtain ⟨matched, added, parts, _, matches'⟩ := accepted (Except.ok.inj silent)
      exact ⟨Accepted after, fun h => learns.sound _ _ h, matched, added, parts, matches'⟩

end Acceptance

end Comparison

end UpgradeSafety
