import Mathlib.Tactic.Lemma
import UpgradeSafety.Extraction.KnownTypes

/-!
# Runs of an extraction

What a step of an extraction comes to, as a condition on how it ends and how it
fails. Each way to build a step has one rule, so that a step is followed through
by rewriting.
-/

namespace UpgradeSafety

namespace Registering

variable {α β : Type} {k : KnownTypes} {post : α → KnownTypes → Prop}
  {fail : ResolutionError → Prop}

/-- From `k`, a step ends as `post` says or fails as `fail` says. -/
def Leads (m : Registering α) (k : KnownTypes) (post : α → KnownTypes → Prop)
    (fail : ResolutionError → Prop) : Prop :=
  match m.run k with
  | .ok (a, after) => post a after
  | .error cause => fail cause

lemma leads_of_ok {m : Registering α} (h : Leads m k post fail) {a : α} {after : KnownTypes}
    (ran : m.run k = .ok (a, after)) : post a after := by
  rw [Leads, ran] at h
  exact h

lemma leads_of_error {m : Registering α} (h : Leads m k post fail) {cause : ResolutionError}
    (ran : m.run k = .error cause) : fail cause := by
  rw [Leads, ran] at h
  exact h

lemma Leads.exists_ok {m : Registering α} (h : Leads m k post (fun _ => False)) :
    ∃ a after, m.run k = .ok (a, after) := by
  cases ran : m.run k with
  | ok result => exact ⟨result.1, result.2, rfl⟩
  | error cause => exact (leads_of_error h ran).elim

lemma Leads.mono {m : Registering α} {post' : α → KnownTypes → Prop}
    {fail' : ResolutionError → Prop} (h : Leads m k post fail)
    (ends : ∀ a after, post a after → post' a after)
    (fails : ∀ cause, fail cause → fail' cause) : Leads m k post' fail' := by
  cases ran : m.run k with
  | ok result =>
    rw [Leads, ran] at h ⊢
    exact ends _ _ h
  | error cause =>
    rw [Leads, ran] at h ⊢
    exact fails cause h

lemma Leads.imp {m : Registering α} {post' : α → KnownTypes → Prop} (h : Leads m k post fail)
    (ends : ∀ a after, post a after → post' a after) : Leads m k post' fail :=
  h.mono ends fun _ hf => hf

/-- Nothing is asked of how a step fails. -/
lemma leads_of_runs {m : Registering α}
    (ends : ∀ a after, m.run k = .ok (a, after) → post a after) :
    Leads m k post (fun _ => True) := by
  rw [Leads]
  cases ran : m.run k with
  | ok result => exact ends result.1 result.2 ran
  | error cause => trivial

lemma leads_always {m : Registering α} (ends : ∀ a after, post a after) :
    Leads m k post (fun _ => True) := leads_of_runs fun a after _ => ends a after

@[simp] lemma leads_pure (a : α) : Leads (pure a) k post fail ↔ post a k := Iff.rfl

@[simp] lemma leads_throw (cause : ResolutionError) :
    Leads (throw cause : Registering α) k post fail ↔ fail cause := Iff.rfl

@[simp] lemma leads_get {post : KnownTypes → KnownTypes → Prop} :
    Leads get k post fail ↔ post k k := Iff.rfl

@[simp] lemma leads_modify {post : Unit → KnownTypes → Prop} (change : KnownTypes → KnownTypes) :
    Leads (modify change) k post fail ↔ post () (change k) := Iff.rfl

@[simp] lemma leads_bind (m : Registering α) (next : α → Registering β)
    {post : β → KnownTypes → Prop} :
    Leads (m >>= next) k post fail ↔
      Leads m k (fun a after => Leads (next a) after post fail) fail := by
  have run : (m >>= next).run k = m.run k >>= fun r => (next r.1).run r.2 := StateT.run_bind ..
  rw [Leads, run]
  cases ran : m.run k with
  | ok result =>
    rw [Leads, ran]
    rfl
  | error cause =>
    rw [Leads, ran]
    rfl

lemma leads_discard (m : Registering α) {post : Unit → KnownTypes → Prop} :
    Leads (discard m) k post fail ↔ Leads m k (fun _ after => post () after) fail := by
  have run : (discard m).run k = m.run k >>= fun r => pure ((), r.2) := rfl
  rw [Leads, run]
  cases ran : m.run k with
  | ok result =>
    rw [Leads, ran]
    rfl
  | error cause =>
    rw [Leads, ran]
    rfl

@[simp] lemma leads_lift_ok (a : α) :
    Leads (liftM (Except.ok a : Except ResolutionError α)) k post fail ↔ post a k := Iff.rfl

/--
A run over a list, with an invariant of the elements that are done, their
results and the types met so far.
-/
lemma leads_mapM (step : α → Registering β) (l : List α)
    (inv : List α → List β → KnownTypes → Prop)
    (each : ∀ done a rest, l = done ++ a :: rest → ∀ results k, inv done results k →
      Leads (step a) k (fun b => inv (done ++ [a]) (results ++ [b])) fail)
    (start : inv [] [] k) : Leads (l.mapM step) k (inv l) fail := by
  have general : ∀ rest done results k, l = done ++ rest → inv done results k →
      Leads (rest.mapM step) k (fun bs => inv l (results ++ bs)) fail := by
    intro rest
    induction rest with
    | nil =>
      intro done results k whole h
      rw [List.append_nil] at whole
      rw [List.mapM_nil, leads_pure, List.append_nil, whole]
      exact h
    | cons a rest ih =>
      intro done results k whole h
      have first := each done a rest whole results k h
      simp only [List.mapM_cons, leads_bind, leads_pure]
      refine first.imp fun b after hb => ?_
      have others := ih (done ++ [a]) (results ++ [b]) after (by simp [whole]) hb
      refine others.imp fun bs last hbs => ?_
      simpa only [List.append_assoc, List.singleton_append] using hbs
  have whole := general l [] [] k rfl start
  simpa only [List.nil_append] using whole

/-- Two things that hold of the same run. -/
lemma Leads.and {m : Registering α} {post' : α → KnownTypes → Prop}
    {fail' : ResolutionError → Prop} (h : Leads m k post fail) (h' : Leads m k post' fail') :
    Leads m k (fun a after => post a after ∧ post' a after)
      (fun cause => fail cause ∧ fail' cause) := by
  cases ran : m.run k with
  | ok result =>
    rw [Leads, ran] at h h' ⊢
    exact ⟨h, h'⟩
  | error cause =>
    rw [Leads, ran] at h h' ⊢
    exact ⟨h, h'⟩

/-! ## Runs that succeed -/

lemma run_bind (m : Registering α) (next : α → Registering β) (k : KnownTypes) :
    (m >>= next).run k = m.run k >>= fun r => (next r.1).run r.2 := StateT.run_bind ..

lemma run_bind_of_ok {m : Registering α} {next : α → Registering β} {a : α}
    {between : KnownTypes} (first : m.run k = .ok (a, between)) :
    (m >>= next).run k = (next a).run between := by
  rw [run_bind, first]
  rfl

lemma run_bind_eq_ok {m : Registering α} {next : α → Registering β} {b : β} {after : KnownTypes}
    (ran : (m >>= next).run k = .ok (b, after)) :
    ∃ a between, m.run k = .ok (a, between) ∧ (next a).run between = .ok (b, after) := by
  rw [run_bind] at ran
  cases first : m.run k with
  | error cause => rw [first] at ran; cases ran
  | ok r =>
    rw [first] at ran
    exact ⟨r.1, r.2, rfl, ran⟩

lemma run_mapM_nil {step : α → Registering β} {bs : List β} {after : KnownTypes}
    (ran : (([] : List α).mapM step).run k = .ok (bs, after)) : bs = [] ∧ after = k := by
  cases ran
  exact ⟨rfl, rfl⟩

lemma run_mapM_cons {step : α → Registering β} {a : α} {l : List α} {bs : List β}
    {after : KnownTypes} (ran : ((a :: l).mapM step).run k = .ok (bs, after)) :
    ∃ b rest between, bs = b :: rest ∧ (step a).run k = .ok (b, between) ∧
      (l.mapM step).run between = .ok (rest, after) := by
  rw [List.mapM_cons] at ran
  obtain ⟨b, between, first, others⟩ := run_bind_eq_ok ran
  obtain ⟨rest, last, second, ended⟩ := run_bind_eq_ok others
  cases ended
  exact ⟨b, rest, between, rfl, first, second⟩

lemma run_mapM_cons_of_ok {step : α → Registering β} {a : α} {l : List α} {b : β} {bs : List β}
    {between after : KnownTypes} (first : (step a).run k = .ok (b, between))
    (rest : (l.mapM step).run between = .ok (bs, after)) :
    ((a :: l).mapM step).run k = .ok (b :: bs, after) := by
  rw [List.mapM_cons, run_bind_of_ok first, run_bind_of_ok rest]
  rfl

lemma run_mapM_concat {step : α → Registering β} {l : List α} {a : α} {bs : List β} {b : β}
    {between after : KnownTypes} (first : (l.mapM step).run k = .ok (bs, between))
    (last : (step a).run between = .ok (b, after)) :
    ((l ++ [a]).mapM step).run k = .ok (bs ++ [b], after) := by
  induction l generalizing k bs with
  | nil =>
    obtain ⟨rfl, rfl⟩ := run_mapM_nil first
    exact run_mapM_cons_of_ok last rfl
  | cons c l ih =>
    obtain ⟨d, rest, before, rfl, here, others⟩ := run_mapM_cons first
    exact run_mapM_cons_of_ok here (ih others)

end Registering

end UpgradeSafety
