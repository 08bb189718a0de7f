import Mathlib.Data.List.Forall2
import Mathlib.Tactic.Lemma

/-!
# Related outcomes

Two computations that come to related results, and lists whose elements are
related one by one. A strict comparison also says that one computation fails
exactly if the other one does; else nothing is said of two computations of which
one fails.
-/

namespace UpgradeSafety

/-- Filtering related lists by conditions that agree. -/
lemma forall₂_filter {α β : Type} {r : α → β → Prop} {p : α → Bool} {q : β → Bool} {l : List α}
    {l' : List β} (h : List.Forall₂ r l l') (agree : ∀ a b, r a b → p a = q b) :
    List.Forall₂ r (l.filter p) (l'.filter q) := by
  refine List.rel_filter (fun a b hab => ?_) h
  exact iff_of_eq (congrArg (· = true) (agree a b hab))

lemma forall₂_getLast? {α β : Type} {r : α → β → Prop} {l : List α} {l' : List β}
    (h : List.Forall₂ r l l') : Option.Rel r l.getLast? l'.getLast? := by
  induction h with
  | nil => exact .none
  | @cons a b l l' first _ ih =>
    rw [List.getLast?_cons, List.getLast?_cons]
    generalize l.getLast? = last, l'.getLast? = last' at ih ⊢
    cases ih with
    | none => exact .some first
    | some h => exact .some h

lemma optionRel_imp {α β : Type} {r wider : α → β → Prop} {x : Option α} {y : Option β}
    (h : Option.Rel r x y) (widen : ∀ a b, r a b → wider a b) : Option.Rel wider x y := by
  cases h with
  | none => exact .none
  | some h => exact .some (widen _ _ h)

lemma mapM_congr {ε α β : Type} {step step' : α → Except ε β} {l : List α}
    (same : ∀ a ∈ l, step a = step' a) : l.mapM step = l.mapM step' := by
  induction l with
  | nil => rfl
  | cons a l ih =>
    rw [List.mapM_cons, List.mapM_cons, same a List.mem_cons_self,
      ih fun b member => same b (List.mem_cons_of_mem a member)]

/-- A run over a list succeeds with the results for its elements. -/
lemma mapM_eq_ok {ε α β : Type} {step : α → Except ε β} {l : List α} {results : List β}
    (ran : l.mapM step = .ok results) : List.Forall₂ (fun a b => step a = .ok b) l results := by
  induction l generalizing results with
  | nil =>
    cases ran
    exact .nil
  | cons a l ih =>
    rw [List.mapM_cons] at ran
    cases first : step a with
    | error e => rw [first] at ran; cases ran
    | ok b =>
      cases others : l.mapM step with
      | error e => rw [first, others] at ran; cases ran
      | ok bs =>
        rw [first, others] at ran
        cases ran
        exact .cons first (ih others)

/-- A run over a list succeeds if it does for each element. -/
lemma mapM_of_forall₂ {ε α β : Type} {step : α → Except ε β} {l : List α} {results : List β}
    (each : List.Forall₂ (fun a b => step a = .ok b) l results) : l.mapM step = .ok results := by
  induction each with
  | nil => rfl
  | cons first _ ih => rw [List.mapM_cons, first, ih]; rfl

/-- A run over a list fails as it fails for one of the elements. -/
lemma mapM_eq_error {ε α β : Type} {step : α → Except ε β} {l : List α} {e : ε}
    (ran : l.mapM step = .error e) : ∃ a ∈ l, step a = .error e := by
  induction l with
  | nil => cases ran
  | cons a l ih =>
    rw [List.mapM_cons] at ran
    cases first : step a with
    | error e =>
      rw [first] at ran
      cases ran
      exact ⟨a, List.mem_cons_self, first⟩
    | ok b =>
      cases others : l.mapM step with
      | error e =>
        rw [first, others] at ran
        cases ran
        obtain ⟨c, hc, failed⟩ := ih others
        exact ⟨c, List.mem_cons_of_mem a hc, failed⟩
      | ok bs => rw [first, others] at ran; cases ran

/-- How two computations come out, compared strictly or only as far as both of them succeed. -/
inductive EndAlike {ε ε' α α' : Type} (strict : Prop) (related : α → α' → Prop) :
    Except ε α → Except ε' α' → Prop where
  | ok {a : α} {a' : α'} (h : related a a') : EndAlike strict related (.ok a) (.ok a')
  | error (e : ε) (e' : ε') : EndAlike strict related (.error e) (.error e')
  | left (loose : ¬ strict) (a : α) (e' : ε') : EndAlike strict related (.ok a) (.error e')
  | right (loose : ¬ strict) (e : ε) (a' : α') : EndAlike strict related (.error e) (.ok a')

namespace EndAlike

variable {ε ε' α α' β β' : Type} {strict : Prop} {related : α → α' → Prop}
  {related' : β → β' → Prop} {x : Except ε α} {x' : Except ε' α'}

/-- Where one computation may fail alone, a failed one goes with any other. -/
lemma failed_left (loose : ¬ strict) (e : ε) (x' : Except ε' α') :
    EndAlike strict related (.error e : Except ε α) x' := by
  cases x' with
  | ok a' => exact .right loose e a'
  | error e' => exact .error e e'

lemma failed_right (loose : ¬ strict) (x : Except ε α) (e' : ε') :
    EndAlike strict related x (.error e' : Except ε' α') := by
  cases x with
  | ok a => exact .left loose a e'
  | error e => exact .error e e'

lemma bind {next : α → Except ε β} {next' : α' → Except ε' β'}
    (first : EndAlike strict related x x')
    (rest : ∀ a a', related a a' → EndAlike strict related' (next a) (next' a')) :
    EndAlike strict related' (x >>= next) (x' >>= next') := by
  cases first with
  | ok h => exact rest _ _ h
  | error e e' => exact .error e e'
  | left loose a e' => exact failed_right loose (next a) e'
  | right loose e a' => exact failed_left loose e (next' a')

lemma mapM {γ γ' : Type} {items : γ → γ' → Prop} {step : γ → Except ε α}
    {step' : γ' → Except ε' α'} {l : List γ} {l' : List γ'} (lists : List.Forall₂ items l l')
    (each : ∀ c c', items c c' → EndAlike strict related (step c) (step' c')) :
    EndAlike strict (List.Forall₂ related) (l.mapM step) (l'.mapM step') := by
  induction lists with
  | nil => exact .ok .nil
  | cons first _ ih =>
    rw [List.mapM_cons, List.mapM_cons]
    apply (each _ _ first).bind
    intro a a' ha
    apply ih.bind
    intro as as' has
    exact .ok (.cons ha has)

/-- Related values stay related while one element after the other is worked into them. -/
lemma foldlM {γ γ' : Type} {items : γ → γ' → Prop} {step : α → γ → Except ε α}
    {step' : α' → γ' → Except ε' α'} {l : List γ} {l' : List γ'} (lists : List.Forall₂ items l l')
    (each : ∀ c c', items c c' → ∀ a a', related a a' →
      EndAlike strict related (step a c) (step' a' c')) {a : α} {a' : α'} (start : related a a') :
    EndAlike strict related (l.foldlM step a) (l'.foldlM step' a') := by
  induction lists generalizing a a' with
  | nil => exact .ok start
  | cons first _ ih =>
    rw [List.foldlM_cons, List.foldlM_cons]
    apply (each _ _ first a a' start).bind
    intro b b' hb
    exact ih hb

/-- Computations that end alike in the strict sense have the same results. -/
lemma ok_iff {x : Except ε α} {x' : Except ε' α} (h : EndAlike True (fun a a' => a = a') x x')
    (a : α) : x = .ok a ↔ x' = .ok a := by
  cases h with
  | ok h => rw [h, Except.ok.injEq, Except.ok.injEq]
  | error e e' =>
    constructor
    · intro h
      cases h
    · intro h
      cases h
  | left loose => exact absurd trivial loose
  | right loose => exact absurd trivial loose

end EndAlike

end UpgradeSafety
