import UpgradeSafety.Proofs.Extraction.Annotations
import UpgradeSafety.Proofs.Outcomes

/-!
# Registrations side by side

Two programs that resemble one another register their types in the same order,
and what the two runs know stays related from step to step.
-/

namespace UpgradeSafety

namespace Registering

variable {α α' β β' : Type} {strict : Prop} {states : KnownTypes → KnownTypes → Prop}
  {results : α → α' → Prop} {results' : β → β' → Prop}

/-- Two steps that are taken from related states end in such states, with related results. -/
def InStep (strict : Prop) (states : KnownTypes → KnownTypes → Prop) (results : α → α' → Prop)
    (m : Registering α) (m' : Registering α') : Prop :=
  ∀ k k', states k k' →
    EndAlike strict (fun r r' => results r.1 r'.1 ∧ states r.2 r'.2) (m.run k) (m'.run k')

lemma inStep_pure {a : α} {a' : α'} (h : results a a') :
    InStep strict states results (pure a) (pure a') := fun _ _ related => .ok ⟨h, related⟩

lemma inStep_throw (cause cause' : ResolutionError) :
    InStep strict states results (throw cause) (throw cause') := fun _ _ _ =>
  .error cause cause'

lemma inStep_throw_left (loose : ¬ strict) (cause : ResolutionError) (m' : Registering α') :
    InStep strict states results (throw cause) m' := fun _ _ _ => .failed_left loose cause _

lemma inStep_throw_right (loose : ¬ strict) (m : Registering α) (cause : ResolutionError) :
    InStep strict states results m (throw cause) := fun _ _ _ => .failed_right loose _ cause

lemma inStep_get : InStep strict states states get get := fun _ _ related =>
  .ok ⟨related, related⟩

lemma inStep_modify {change change' : KnownTypes → KnownTypes}
    (h : ∀ k k', states k k' → states (change k) (change' k')) :
    InStep strict states (fun _ _ => True) (modify change) (modify change') := fun k k' related =>
  .ok ⟨trivial, h k k' related⟩

lemma inStep_lift {x : Except ResolutionError α} {x' : Except ResolutionError α'}
    (h : EndAlike strict results x x') : InStep strict states results (liftM x) (liftM x') := by
  intro k k' related
  cases h with
  | ok h => exact .ok ⟨h, related⟩
  | error e e' => exact .error e e'
  | left loose a e' => exact .left loose (a, k) e'
  | right loose e a' => exact .right loose e (a', k')

lemma inStep_bind {m : Registering α} {m' : Registering α'} {next : α → Registering β}
    {next' : α' → Registering β'} (first : InStep strict states results m m')
    (rest : ∀ a a', results a a' → InStep strict states results' (next a) (next' a')) :
    InStep strict states results' (m >>= next) (m' >>= next') := by
  intro k k' related
  have run : (m >>= next).run k = m.run k >>= fun r => (next r.1).run r.2 := StateT.run_bind ..
  have run' : (m' >>= next').run k' = m'.run k' >>= fun r => (next' r.1).run r.2 :=
    StateT.run_bind ..
  rw [run, run']
  apply (first k k' related).bind
  rintro ⟨a, after⟩ ⟨a', after'⟩ ⟨ha, hs⟩
  exact rest a a' ha after after' hs

lemma inStep_mapM {items : β → β' → Prop} {step : β → Registering α}
    {step' : β' → Registering α'} {l : List β} {l' : List β'} (lists : List.Forall₂ items l l')
    (each : ∀ b b', items b b' → InStep strict states results (step b) (step' b')) :
    InStep strict states (List.Forall₂ results) (l.mapM step) (l'.mapM step') := by
  induction lists with
  | nil => exact inStep_pure .nil
  | cons first _ ih =>
    rw [List.mapM_cons, List.mapM_cons]
    apply inStep_bind (each _ _ first)
    intro a a' ha
    apply inStep_bind ih
    intro as as' has
    exact inStep_pure (.cons ha has)

/-- Steps in step that keep what is known on either side on its own. -/
lemma InStep.keeping {m : Registering α} {m' : Registering α'} {inv inv' : KnownTypes → Prop}
    (h : InStep strict states results m m')
    (left : ∀ k, inv k → Leads m k (fun _ after => inv after) (fun _ => True))
    (right : ∀ k, inv' k → Leads m' k (fun _ after => inv' after) (fun _ => True)) :
    InStep strict (fun k k' => states k k' ∧ inv k ∧ inv' k') results m m' := by
  rintro k k' ⟨related, hk, hk'⟩
  have run := h k k' related
  have kept := left k hk
  have kept' := right k' hk'
  rw [Leads] at kept kept'
  generalize m.run k = r, m'.run k' = r' at run kept kept' ⊢
  cases run with
  | ok h => exact .ok ⟨h.1, h.2, kept, kept'⟩
  | error e e' => exact .error e e'
  | left loose a e' => exact .left loose a e'
  | right loose e a' => exact .right loose e a'

end Registering

/-! ## Programs that resemble one another -/

section Resembling

variable (types : TypeName → TypeName → Prop) (ids : TypeId → TypeId → Prop)

/-- Annotations of one form, with related annotations inside. -/
inductive TypeName.Resembles : TypeName → TypeName → Prop where
  | elementary {i i' : NodeId} {n n' : String} {d d' : TypeDescription} :
      Resembles (.elementary i n d) (.elementary i' n' d')
  | declared {i i' r r' : NodeId} {n n' : Option String} {d d' : TypeDescription} :
      Resembles (.declared i r n d) (.declared i' r' n' d')
  | mapping {i i' : NodeId} {k k' v v' : TypeName} {d d' : TypeDescription} (key : types k k')
      (value : types v v') : Resembles (.mapping i k v d) (.mapping i' k' v' d')
  | array {i i' : NodeId} {e e' : TypeName} {d d' : TypeDescription} (element : types e e') :
      Resembles (.array i e d) (.array i' e' d')
  | function {i i' : NodeId} {d d' : TypeDescription} :
      Resembles (.function i d) (.function i' d')

/-- Declarations of one form, as far as a type that names them is concerned. -/
inductive Declaration.Resembles : Declaration → Declaration → Prop where
  | contract (c c' : Contract) : Resembles (.contract c) (.contract c')
  | enum {e e' : EnumDefinition} (members : e.members = e'.members) :
      Resembles (.enum e) (.enum e')
  | valueType {t t' : ValueTypeDefinition} (underlying : types t.underlying t'.underlying) :
      Resembles (.valueType t) (.valueType t')
  | struct {s s' : StructDefinition}
      (members : List.Forall₂ (fun m m' => m.name = m'.name ∧ types m.type m'.type)
        s.members s'.members) : Resembles (.struct s) (.struct s')

/-- Members with the same labels, of related types. -/
def MembersResemble : List StructMember → List StructMember → Prop :=
  List.Forall₂ fun m m' => m.label = m'.label ∧ ids m.type m'.type

/-- Kinds of one form, with related ids inside. -/
inductive TypeKind.Resembles : TypeKind → TypeKind → Prop where
  | value : Resembles .value .value
  | contract : Resembles .contract .contract
  | openStruct : Resembles (.struct none) (.struct none)
  | struct {ms ms' : List StructMember} (members : MembersResemble ids ms ms') :
      Resembles (.struct (some ms)) (.struct (some ms'))
  | enum (members : Option (List String)) : Resembles (.enum members) (.enum members)
  | mapping {k k' v v' : TypeId} (key : ids k k') (value : ids v v') :
      Resembles (.mapping k v) (.mapping k' v')
  | array {e e' : TypeId} (length : ArrayLength) (element : ids e e') :
      Resembles (.array e length) (.array e' length)

/-- Size rules of one form; in a strict comparison known sizes are the same. -/
inductive SizeRule.Resembles (strict : Prop) : SizeRule → SizeRule → Prop where
  | known {f f' : Footprint} (same : strict → f = f') : Resembles strict (.known f) (.known f')
  | sameAs {x x' : TypeId} (other : ids x x') : Resembles strict (.sameAs x) (.sameAs x')
  | fixedArray {e e' : TypeId} (length : Nat) (element : ids e e') :
      Resembles strict (.fixedArray e length) (.fixedArray e' length)
  | struct {ms ms' : List TypeId} (members : List.Forall₂ ids ms ms') :
      Resembles strict (.struct ms) (.struct ms')

end Resembling

lemma MembersResemble.eq {ms ms' : List StructMember} (h : MembersResemble Eq ms ms') :
    ms = ms' := by
  have same : List.Forall₂ Eq ms ms' := h.imp fun m m' hm => by
    cases m
    cases m'
    cases hm.1
    cases hm.2
    rfl
  rwa [List.forall₂_eq_eq_eq] at same

lemma TypeKind.Resembles.eq {kind kind' : TypeKind} (h : kind.Resembles Eq kind') :
    kind = kind' := by
  cases h with
  | struct members => rw [members.eq]
  | mapping key value => rw [key, value]
  | array length element => rw [element]
  | _ => rfl

lemma SizeRule.Resembles.eq {rule rule' : SizeRule} (h : rule.Resembles Eq True rule') :
    rule = rule' := by
  cases h with
  | known same => rw [same trivial]
  | sameAs other => rw [other]
  | fixedArray length element => rw [element]
  | struct members =>
    rw [List.forall₂_eq_eq_eq] at members
    rw [members]

/--
Two programs with related annotations, whose canonical ids are related as well,
and the relation between what their registrations know.
-/
structure SideBySide (strict : Prop) (ds ds' : Declarations)
    (types : TypeName → TypeName → Prop) (ids : TypeId → TypeId → Prop)
    (nodes : NodeId → NodeId → Prop) (states : KnownTypes → KnownTypes → Prop) : Prop where
  shapes : ∀ {t t'}, types t t' → t.Resembles types t'
  texts : ∀ {t t'}, types t t' → t.description.text = t'.description.text
  named : ∀ {t t'}, types t t' →
    Option.Rel (fun raw raw' => ids (ds.canonicalId raw) (ds'.canonicalId raw'))
      t.description.identifier t'.description.identifier
  refers : ∀ {t t'}, types t t' → Option.Rel nodes t.declaration? t'.declaration?
  resolved : ∀ {n n'}, nodes n n' →
    Option.Rel (Declaration.Resembles types) (ds.find? n) (ds'.find? n')
  apart : ∀ {n n' m m'}, nodes n n' → nodes m m' → (n = m ↔ n' = m')
  lengths : ∀ {id id'}, ids id id' → id.arrayLength? = id'.arrayLength?
  elementary : strict → ∀ {id id'}, ids id id' →
    Footprint.ofElementary? id = Footprint.ofElementary? id'
  entered : ∀ {k k' id id'}, states k k' → ids id id' →
    k.types.contains id = k'.types.contains id'
  origins : ∀ {k k' id id'}, states k k' → ids id id' →
    Option.Rel nodes (k.origins.find? id) (k'.origins.find? id')
  putOrigin : ∀ {k k' id id' n n'}, states k k' → ids id id' → nodes n n' →
    states (k.putOrigin id n) (k'.putOrigin id' n')
  putType : ∀ {k k' id id' kind kind'}, states k k' → ids id id' → kind.Resembles ids kind' →
    ∀ text : Option String,
      states (k.putType id (text.getD id) kind) (k'.putType id' (text.getD id') kind')
  putSizeRule : ∀ {k k' id id' rule rule'}, states k k' → ids id id' →
    rule.Resembles ids strict rule' → states (k.putSizeRule id rule) (k'.putSizeRule id' rule')

namespace SideBySide

open Registering Registration

variable {strict : Prop} {ds ds' : Declarations} {types : TypeName → TypeName → Prop}
  {ids : TypeId → TypeId → Prop} {nodes : NodeId → NodeId → Prop}
  {states : KnownTypes → KnownTypes → Prop} {id id' : TypeId} {t t' : TypeName}

lemma noteOrigin (h : SideBySide strict ds ds' types ids nodes states) (hid : ids id id')
    {n n' : NodeId} (hn : nodes n n') :
    InStep strict states (fun _ _ => True) (Registration.noteOrigin id n)
      (Registration.noteOrigin id' n') := by
  apply inStep_bind inStep_get
  intro k k' hk
  have origins := h.origins hk hid
  generalize k.origins.find? id = first, k'.origins.find? id' = first' at origins ⊢
  cases origins with
  | none => exact inStep_modify fun k k' hk => h.putOrigin hk hid hn
  | @some m m' hm =>
    have same := h.apart hm hn
    simp only
    by_cases again : m = n
    · rw [if_pos again, if_pos (same.1 again)]
      exact inStep_pure trivial
    · rw [if_neg again, if_neg (mt same.2 again)]
      exact inStep_throw _ _

/-- The declarations that related annotations name resemble one another. -/
lemma declarationOf? (h : SideBySide strict ds ds' types ids nodes states) (hid : ids id id')
    (ht : types t t') :
    InStep strict states (Option.Rel (Declaration.Resembles types))
      (Registration.declarationOf? ds id t) (Registration.declarationOf? ds' id' t') := by
  have refers := h.refers ht
  rw [Registration.declarationOf?, Registration.declarationOf?]
  generalize t.declaration? = named, t'.declaration? = named' at refers ⊢
  cases refers with
  | none => exact inStep_pure .none
  | @some n n' hn =>
    have resolved := h.resolved hn
    simp only [Declarations.resolve]
    generalize found : ds.find? n = d, found' : ds'.find? n' = d' at resolved ⊢
    cases resolved with
    | none => exact inStep_throw _ _
    | @some d d' hd =>
      have recorded := h.noteOrigin hid hn
      rw [← find?_id found, ← find?_id found'] at recorded
      have declared : EndAlike strict (fun x x' => x = d ∧ x' = d')
          (.ok d : Except ResolutionError Declaration) (.ok d' : Except ResolutionError _) :=
        .ok ⟨rfl, rfl⟩
      apply inStep_bind (inStep_lift declared)
      rintro x x' ⟨rfl, rfl⟩
      apply inStep_bind recorded
      intro _ _ _
      exact inStep_pure (.some hd)

lemma elementaryFootprint (h : SideBySide strict ds ds' types ids nodes states)
    (hid : ids id id') :
    InStep strict states (fun f f' => strict → f = f') (Registration.elementaryFootprint id)
      (Registration.elementaryFootprint id') := by
  rw [Registration.elementaryFootprint, Registration.elementaryFootprint]
  cases size : Footprint.ofElementary? id with
  | none =>
    cases size' : Footprint.ofElementary? id' with
    | none => exact inStep_throw _ _
    | some f' =>
      refine inStep_throw_left (fun hs => ?_) _ _
      rw [h.elementary hs hid, size'] at size
      cases size
  | some f =>
    cases size' : Footprint.ofElementary? id' with
    | none =>
      refine inStep_throw_right (fun hs => ?_) _ _
      rw [h.elementary hs hid, size'] at size
      cases size
    | some f' =>
      apply inStep_pure
      intro hs
      rw [h.elementary hs hid, size'] at size
      exact (Option.some.inj size).symm

lemma members_inStep {ms ms' : List Variable}
    (members : List.Forall₂ (fun m m' => m.name = m'.name ∧ types m.type m'.type) ms ms')
    {inside inside' : TypeName → Registering TypeId}
    (each : ∀ t t', types t t' → InStep strict states ids (inside t) (inside' t')) :
    InStep strict states (MembersResemble ids)
      (ms.mapM fun (m : Variable) => do return StructMember.mk m.name (← inside m.type))
      (ms'.mapM fun (m : Variable) => do return StructMember.mk m.name (← inside' m.type)) := by
  apply inStep_mapM members
  rintro m m' ⟨label, type⟩
  apply inStep_bind (each _ _ type)
  intro x x' hx
  exact inStep_pure ⟨label, hx⟩

/-- Related annotations are described alike, if those inside them are registered in step. -/
lemma describe (h : SideBySide strict ds ds' types ids nodes states) (hid : ids id id')
    {inside inside' : TypeName → Registering TypeId}
    (each : ∀ t t', types t t' → InStep strict states ids (inside t) (inside' t'))
    (text : Option String) (shape : t.Resembles types t') {d d' : Option Declaration}
    (hd : Option.Rel (Declaration.Resembles types) d d') :
    InStep strict states
      (fun r r' => r.1.Resembles ids r'.1 ∧ r.2.Resembles ids strict r'.2)
      (Registration.describe inside id (text.getD id) t d)
      (Registration.describe inside' id' (text.getD id') t' d') := by
  cases shape with
  | elementary =>
    apply inStep_bind (h.elementaryFootprint hid)
    intro f f' same
    exact inStep_pure ⟨.value, .known same⟩
  | function =>
    apply inStep_bind (h.elementaryFootprint hid)
    intro f f' same
    exact inStep_pure ⟨.value, .known same⟩
  | mapping key value =>
    apply inStep_bind (each _ _ key)
    intro k k' hk
    apply inStep_bind (each _ _ value)
    intro v v' hv
    exact inStep_pure ⟨.mapping hk hv, .known fun _ => rfl⟩
  | array element =>
    apply inStep_bind (each _ _ element)
    intro e e' he
    rw [h.lengths hid]
    cases id'.arrayLength? with
    | none => exact inStep_throw _ _
    | some length =>
      cases length with
      | dynamic => exact inStep_pure ⟨.array _ he, .known fun _ => rfl⟩
      | fixed n => exact inStep_pure ⟨.array _ he, .fixedArray n he⟩
  | declared =>
    cases hd with
    | none => exact inStep_throw _ _
    | some hd =>
      cases hd with
      | contract c c' => exact inStep_pure ⟨.contract, .known fun _ => rfl⟩
      | @enum e e' members =>
        apply inStep_pure
        rw [members]
        exact ⟨.enum _, .known fun _ => rfl⟩
      | valueType underlying =>
        apply inStep_bind (each _ _ underlying)
        intro x x' hx
        exact inStep_pure ⟨.value, .sameAs hx⟩
      | struct members =>
        apply inStep_bind (inStep_modify fun k k' hk => h.putType hk hid .openStruct text)
        intro _ _ _
        apply inStep_bind (members_inStep members each)
        intro ms ms' hms
        refine inStep_pure ⟨.struct hms, .struct ?_⟩
        rw [List.forall₂_map_left_iff, List.forall₂_map_right_iff]
        exact hms.imp fun _ _ hm => hm.2

/-- Related annotations are registered in step. -/
lemma register (h : SideBySide strict ds ds' types ids nodes states) {fuel fuel' : Nat}
    (fuels : strict → fuel = fuel') (ht : types t t') :
    InStep strict states ids (Registration.register ds fuel t)
      (Registration.register ds' fuel' t') := by
  induction fuel generalizing fuel' t t' with
  | zero =>
    cases fuel' with
    | zero => exact inStep_throw _ _
    | succ fuel' => exact inStep_throw_left (fun hs => nomatch fuels hs) _ _
  | succ fuel ih =>
    cases fuel' with
    | zero => exact inStep_throw_right (fun hs => nomatch fuels hs) _ _
    | succ fuel' =>
      have named := h.named ht
      have text := h.texts ht
      rw [Registration.register, Registration.register]
      generalize t.description.identifier = raw, t'.description.identifier = raw' at named ⊢
      cases named with
      | none => exact inStep_throw _ _
      | some hid =>
        simp only [text]
        apply inStep_bind (h.declarationOf? hid ht)
        intro d d' hd
        apply inStep_bind inStep_get
        intro k k' hk
        rw [h.entered hk hid]
        cases k'.types.contains _ with
        | true => exact inStep_pure hid
        | false =>
          have inner := h.describe hid
            (fun u u' hu => ih (fun hs => Nat.succ.inj (fuels hs)) hu)
            t'.description.text (h.shapes ht) hd
          apply inStep_bind inner
          rintro ⟨kind, rule⟩ ⟨kind', rule'⟩ ⟨hkind, hrule⟩
          refine inStep_bind (inStep_modify fun k k' hk => ?_) fun _ _ _ => inStep_pure hid
          exact h.putSizeRule (h.putType hk hid hkind _) hid hrule

end SideBySide

namespace Extraction

lemma located_alike {α α' : Type} {strict : Prop} {related : α → α' → Prop}
    {x : Except ResolutionError α} {x' : Except ResolutionError α'} (location location' : String)
    (h : EndAlike strict related x x') :
    EndAlike strict related (located location x) (located location' x') := by
  cases h with
  | ok h => exact .ok h
  | error e e' => exact .error _ _
  | left loose a e' => exact .left loose a _
  | right loose e a' => exact .right loose _ a'

lemma unlocated_alike {α α' : Type} {strict : Prop} {related : α → α' → Prop}
    {x : Except ResolutionError α} {x' : Except ResolutionError α'}
    (h : EndAlike strict related x x') :
    EndAlike strict related (unlocated x) (unlocated x') := by
  cases h with
  | ok h => exact .ok h
  | error e e' => exact .error _ _
  | left loose a e' => exact .left loose a _
  | right loose e a' => exact .right loose _ a'

end Extraction

end UpgradeSafety
