import UpgradeSafety.Extraction.Sizing
import UpgradeSafety.Proofs.Extraction.Runs

/-!
# Steps that end as other steps do

A step of an extraction and another account of the same step: from all types met so far that
satisfy an invariant both have the same outcome, up to how errors are called. There is one rule
for each way to build a step.
-/

namespace UpgradeSafety

namespace Registering

variable {ε α β : Type} {inv : KnownTypes → Prop} {translate : ResolutionError → ε}

/--
Where the invariant holds, `m'` ends as `m` does, with its errors translated, and then the
invariant still holds.
-/
def Mirrors (inv : KnownTypes → Prop) (translate : ResolutionError → ε)
    (m' : StateT KnownTypes (Except ε) α) (m : Registering α) (post : α → Prop) : Prop :=
  ∀ k, inv k → m'.run k = (m.run k).mapError translate ∧
    Leads m k (fun a after => post a ∧ inv after) (fun _ => True)

variable {m' : StateT KnownTypes (Except ε) α} {m : Registering α} {post : α → Prop}
  {next' : α → StateT KnownTypes (Except ε) β} {next : α → Registering β} {last : β → Prop}

lemma mirrors_pure {a : α} (h : post a) : Mirrors inv translate (pure a) (pure a) post :=
  fun _ holds => ⟨rfl, h, holds⟩

lemma mirrors_throw (cause : ResolutionError) {failure : ε} (same : failure = translate cause) :
    Mirrors inv translate (throw failure) (throw cause : Registering α) post :=
  fun _ _ => ⟨congrArg Except.error same, trivial⟩

lemma mirrors_get : Mirrors inv translate get get inv := fun _ holds => ⟨rfl, holds, holds⟩

lemma mirrors_modify {change : KnownTypes → KnownTypes} (keeps : ∀ k, inv k → inv (change k)) :
    Mirrors inv translate (modify change) (modify change) fun _ => True :=
  fun k holds => ⟨rfl, trivial, keeps k holds⟩

lemma mirrors_bind (first : Mirrors inv translate m' m post)
    (rest : ∀ a, post a → Mirrors inv translate (next' a) (next a) last) :
    Mirrors inv translate (m' >>= next') (m >>= next) last := by
  intro k holds
  obtain ⟨same, ends⟩ := first k holds
  have run : (m' >>= next').run k = m'.run k >>= fun r => (next' r.1).run r.2 :=
    StateT.run_bind ..
  rw [leads_bind, run, same, run_bind]
  cases ran : m.run k with
  | error cause =>
    refine ⟨rfl, ?_⟩
    rw [Leads, ran]
    trivial
  | ok result =>
    obtain ⟨ha, after⟩ := leads_of_ok ends ran
    obtain ⟨same, ends⟩ := rest result.1 ha result.2 after
    refine ⟨same, ?_⟩
    rw [Leads, ran]
    exact ends

lemma mirrors_discard (h : Mirrors inv translate m' m post) :
    Mirrors inv translate (discard m') (discard m) fun _ => True := by
  intro k holds
  obtain ⟨same, ends⟩ := h k holds
  have run : (discard m').run k = m'.run k >>= fun r => pure ((), r.2) := rfl
  have run' : (discard m).run k = m.run k >>= fun r => pure ((), r.2) := rfl
  refine ⟨?_, (leads_discard m).2 (ends.imp fun _ _ ended => ⟨trivial, ended.2⟩)⟩
  rw [run, run', same]
  cases m.run k <;> rfl

lemma mirrors_mapM {step' : β → StateT KnownTypes (Except ε) α} {step : β → Registering α}
    (l : List β) (each : ∀ b ∈ l, Mirrors inv translate (step' b) (step b) post) :
    Mirrors inv translate (l.mapM step') (l.mapM step) fun as => ∀ a ∈ as, post a := by
  induction l with
  | nil => exact mirrors_pure (by simp)
  | cons b l ih =>
    rw [List.mapM_cons, List.mapM_cons]
    refine mirrors_bind (each b List.mem_cons_self) fun a ha => ?_
    refine mirrors_bind (ih fun c hc => each c (List.mem_cons_of_mem b hc)) fun as has => ?_
    exact mirrors_pure (List.forall_mem_cons.2 ⟨ha, has⟩)

end Registering

namespace Sizing

open Registering

variable {ε : Type}

/--
Finds a footprint that is known, or uses the rule of a type that does not enclose itself.
Errors go by the name that `fails` gives them.
-/
def withRule (fails : ResolutionError → ε) (enclosing : List TypeId) (id : TypeId)
    (use : SizeRule → StateT KnownTypes (Except ε) Footprint) :
    StateT KnownTypes (Except ε) Footprint := do
  match (← get).footprints.find? id with
  | some f => return f
  | none =>
    if id ∈ enclosing then throw (fails (.selfContainingType id))
    else
      match (← get).sizeRules.find? id with
      | none => throw (fails (.unsupportedType id))
      | some rule => use rule

/-- Whatever is done with the rule of a type, it is looked up in the same way. -/
lemma withRule_mirrors {inv : KnownTypes → Prop} {translate fails : ResolutionError → ε}
    {post : Footprint → Prop} {enclosing : List TypeId} {id : TypeId}
    {use' : SizeRule → StateT KnownTypes (Except ε) Footprint}
    {use : SizeRule → Registering Footprint}
    (cyclic : fails (.selfContainingType id) = translate (.selfContainingType id))
    (unknown : fails (.unsupportedType id) = translate (.unsupportedType id))
    (found : ∀ k, inv k → ∀ f, k.footprints.find? id = some f → post f)
    (each : id ∉ enclosing → ∀ k, inv k → ∀ rule, k.sizeRules.find? id = some rule →
      Mirrors inv translate (use' rule) (use rule) post) :
    Mirrors inv translate (withRule fails enclosing id use')
      (withRule (fun cause => cause) enclosing id use) post := by
  refine mirrors_bind mirrors_get fun k holds => ?_
  cases size : k.footprints.find? id with
  | some f => exact mirrors_pure (found k holds f size)
  | none =>
    by_cases inside : id ∈ enclosing
    · simp only [if_pos inside]
      exact mirrors_throw (.selfContainingType id) cyclic
    · simp only [if_neg inside]
      refine mirrors_bind mirrors_get fun k holds => ?_
      cases ruled : k.sizeRules.find? id with
      | none => exact mirrors_throw (.unsupportedType id) unknown
      | some rule => exact each inside k holds rule ruled

end Sizing

end UpgradeSafety
