import UpgradeSafety.Proofs.Compilation.Additions
import UpgradeSafety.Proofs.Extraction.Layouts
import UpgradeSafety.Proofs.Extraction.SideBySide

/-!
# Layouts of programs with further declarations

A contract is laid out in a program and in the same program with declarations
that are unrelated to it. Both runs register the same annotations in the same
order, under ids that may differ, and reach layouts with the same labels and the
same structure. Nothing is said of sizes.
-/

namespace UpgradeSafety

/-! ## Tables under ids that differ -/

/-- The entries at related ids are related. -/
def TablesAlike {α α' : Type} (ids : TypeId → TypeId → Prop) (related : α → α' → Prop)
    (t : Table α) (t' : Table α') : Prop :=
  ∀ i i', ids i i' → Option.Rel related (t.find? i) (t'.find? i')

lemma TablesAlike.insert {α α' : Type} {ids : TypeId → TypeId → Prop} {related : α → α' → Prop}
    {t : Table α} {t' : Table α'} (h : TablesAlike ids related t t') {i i' : TypeId}
    (apart : ∀ {j j'}, ids j j' → (j = i ↔ j' = i')) {a : α} {a' : α'} (ha : related a a') :
    TablesAlike ids related (t.insert i a) (t'.insert i' a') := by
  intro j j' hj
  rw [Table.find?_insert, Table.find?_insert]
  by_cases same : j = i
  · rw [if_pos same, if_pos ((apart hj).1 same)]
    exact .some ha
  · rw [if_neg same, if_neg (mt (apart hj).2 same)]
    exact h j j' hj

/-- Types whose kinds have one form, with related ids inside. -/
def TypeItem.Resembles (ids : TypeId → TypeId → Prop) (item item' : TypeItem) : Prop :=
  item.kind.Resembles ids item'.kind

/-- What two registrations know under related ids. -/
structure KnownTypes.Alike (ids : TypeId → TypeId → Prop) (nodes : NodeId → NodeId → Prop)
    (k k' : KnownTypes) : Prop where
  types : TablesAlike ids (TypeItem.Resembles ids) k.types k'.types
  origins : TablesAlike ids nodes k.origins k'.origins

/-- Two layouts with the same labels in storage, whose types have related ids and kinds. -/
structure Layout.Alike (ids : TypeId → TypeId → Prop) (l l' : Layout) : Prop where
  storage : List.Forall₂ (fun a a' : StorageItem => a.label = a'.label ∧ ids a.type a'.type)
    l.storage l'.storage
  types : TablesAlike ids (TypeItem.Resembles ids) l.types l'.types

namespace KnownTypes.Alike

variable {ids : TypeId → TypeId → Prop} {nodes : NodeId → NodeId → Prop} {k k' : KnownTypes}

lemma empty : KnownTypes.empty.Alike ids nodes .empty where
  types _ _ _ := .none
  origins _ _ _ := .none

/-- Finding sizes changes nothing that is compared. -/
lemma sizesMore (h : k.Alike ids nodes k') {after after' : KnownTypes} (more : SizesMore k after)
    (more' : SizesMore k' after') : after.Alike ids nodes after' where
  types i i' hi := by
    have before := h.types i i' hi
    have kinds := more.kinds i
    have kinds' := more'.kinds i'
    generalize k.types.find? i = x, k'.types.find? i' = x' at before kinds kinds'
    cases before with
    | none =>
      rw [Option.map_none, Option.map_eq_none_iff] at kinds kinds'
      rw [kinds, kinds']
      exact .none
    | some same =>
      rw [Option.map_some, Option.map_eq_some_iff] at kinds kinds'
      obtain ⟨later, found, kind⟩ := kinds
      obtain ⟨later', found', kind'⟩ := kinds'
      rw [found, found']
      refine .some ?_
      rw [TypeItem.Resembles, kind, kind']
      exact same
  origins i i' hi := by
    rw [more.origins, more'.origins]
    exact h.origins i i' hi

end KnownTypes.Alike

/-! ## Annotations in use -/

namespace Declarations

/-- A node that an annotation in use refers to, the same one in both programs. -/
def Referred (ds : Declarations) (c : Contract) (n n' : NodeId) : Prop :=
  n = n' ∧ ∃ t, ds.Uses c t ∧ t.declaration? = some n

/-- An annotation in use, the same one in both programs. -/
def Used (ds : Declarations) (c : Contract) (t t' : TypeName) : Prop := t = t' ∧ ds.Uses c t

variable {ds ds' : Declarations} {name : String} {c c' : Contract}

lemma Used.resembles {t t' : TypeName} (h : ds.Used c t t') : t.Resembles (ds.Used c) t' := by
  obtain ⟨rfl, used⟩ := h
  cases t with
  | elementary i n d => exact .elementary
  | declared i r n d => exact .declared
  | function i d => exact .function
  | mapping i key value d =>
    exact .mapping ⟨rfl, .inside used List.mem_cons_self⟩
      ⟨rfl, .inside used (.tail _ List.mem_cons_self)⟩
  | array i element d => exact .array ⟨rfl, .inside used List.mem_cons_self⟩

/-- A declaration that is referred to holds annotations in use. -/
lemma resembles_of_used {t : TypeName} {n : NodeId} (used : ds.Uses c t)
    (refers : t.declaration? = some n) {d d' : Declaration} (found : ds.find? n = some d)
    (same : d.Extends d') : d.Resembles (ds.Used c) d' := by
  have inside : ∀ u ∈ t.parts (some d), ds.Uses c u := by
    intro u member
    have declares : ds.declarationOf? t = some d := by rw [declarationOf?, refers]; exact found
    rw [← declares] at member
    exact .inside used member
  cases t with
  | declared i r name' desc =>
    cases same with
    | contract h => exact .contract _ _
    | same d =>
      cases d with
      | contract e => exact .contract e e
      | enum e => exact .enum rfl
      | valueType v => exact .valueType ⟨rfl, inside _ List.mem_cons_self⟩
      | struct s =>
        refine .struct (List.forall₂_same.2 fun m member => ⟨rfl, rfl, ?_⟩)
        exact inside _ (List.mem_map_of_mem member)
  | elementary i n d => cases refers
  | mapping i k v d => cases refers
  | array i e d => cases refers
  | function i d => cases refers

namespace ExtendedBy

lemma find?_referred (h : ds.ExtendedBy name c ds') {t : TypeName} {n : NodeId}
    (used : ds.Uses c t) (refers : t.declaration? = some n) :
    Option.Rel Declaration.Extends (ds.find? n) (ds'.find? n) :=
  h.find? (Or.inl (Or.inr ⟨t, used, Or.inl refers⟩))

lemma inside_eq (h : ds.ExtendedBy name c ds') {t : TypeName} (used : ds.Uses c t) :
    ds.inside t = ds'.inside t := by
  rw [inside, inside, declarationOf?, declarationOf?]
  cases refers : t.declaration? with
  | none => rfl
  | some n =>
    rw [Option.bind_some, Option.bind_some]
    have found := h.find?_referred used refers
    generalize ds.find? n = d, ds'.find? n = d' at found
    cases found with
    | none => rfl
    | some same =>
      cases same with
      | same d => rfl
      | contract h => cases t <;> rfl

/-- The stored variables are the same, and so are the names of the contracts they stand in. -/
lemma variablesOf_alike {bases bases' : List Contract}
    (same : List.Forall₂ Contract.Extends bases bases') :
    List.Forall₂ (fun q q' => q.2 = q'.2) (Extraction.variablesOf bases)
      (Extraction.variablesOf bases') := by
  refine List.rel_flatMap same fun b b' hb => ?_
  rw [Contract.storedVariables, Contract.storedVariables, hb.stored]
  rw [List.forall₂_map_left_iff, List.forall₂_map_right_iff]
  exact List.forall₂_same.2 fun v _ => rfl

lemma lineage_ok (h : ds.ExtendedBy name c ds') (hc : c.Extends c') {bases : List Contract}
    (found : ds.lineage c = .ok bases) :
    ∃ bases', ds'.lineage c' = .ok bases' ∧ List.Forall₂ Contract.Extends bases bases' := by
  have alike := h.lineage hc
  rw [found] at alike
  generalize ds'.lineage c' = found' at alike
  cases alike with
  | ok same => exact ⟨_, rfl, same⟩
  | left loose => exact absurd trivial loose

/-- The annotations in use still are. -/
lemma uses (h : ds.ExtendedBy name c ds') (hc : c.Extends c') {t : TypeName}
    (used : ds.Uses c t) : ds'.Uses c' t := by
  induction used with
  | @stored bases v found member =>
    obtain ⟨bases', found', same⟩ := h.lineage_ok hc found
    have stored : List.Forall₂ Eq ((Extraction.variablesOf bases).map Prod.snd)
        ((Extraction.variablesOf bases').map Prod.snd) := by
      rw [List.forall₂_map_left_iff, List.forall₂_map_right_iff]
      exact variablesOf_alike same
    rw [List.forall₂_eq_eq_eq] at stored
    rw [stored] at member
    exact .stored found' member
  | @inside t u outer member ih =>
    rw [h.inside_eq outer] at member
    exact .inside ih member

/-- The registrations of a program and of one with further declarations. -/
lemma sideBySide (h : ds.ExtendedBy name c ds') (wellNamed : ds.WellNamed c) :
    SideBySide False ds ds' (ds.Used c) (ds.Renames c ds') (ds.Referred c)
      (KnownTypes.Alike (ds.Renames c ds') (ds.Referred c)) where
  shapes ht := ht.resembles
  texts ht := by rw [ht.1]
  named := by
    rintro t _ ⟨rfl, used⟩
    cases identified : t.description.identifier with
    | none => exact .none
    | some raw => exact .some ⟨t, raw, used, identified, rfl, rfl⟩
  refers := by
    rintro t _ ⟨rfl, used⟩
    cases refers : t.declaration? with
    | none => exact .none
    | some n => exact .some ⟨rfl, t, used, refers⟩
  resolved := by
    rintro n _ ⟨rfl, t, used, refers⟩
    have kept := h.find?_referred used refers
    generalize found : ds.find? n = d, ds'.find? n = d' at kept ⊢
    cases kept with
    | none => exact .none
    | some same => exact .some (resembles_of_used used refers found same)
  apart hn hm := by rw [hn.1, hm.1]
  lengths hi := h.renames_arrayLength? wellNamed hi
  elementary := False.elim
  entered := by
    intro k k' i i' hk hi
    have known := hk.types i i' hi
    rw [Table.contains, Table.contains]
    generalize k.types.find? i = x, k'.types.find? i' = x' at known ⊢
    cases known <;> rfl
  origins hk hi := hk.origins _ _ hi
  putOrigin hk hi hn :=
    ⟨hk.types, hk.origins.insert (fun hj => h.renames_eq_iff wellNamed hj hi) hn⟩
  putType hk hi hkind text :=
    ⟨hk.types.insert (fun hj => h.renames_eq_iff wellNamed hj hi) hkind, hk.origins⟩
  putSizeRule hk hi _ := ⟨hk.types, hk.origins⟩

end ExtendedBy

end Declarations

/-! ## Both extractions -/

namespace Extraction

open Registering

lemma register_settled {ds : Declarations} {c : Contract} {t : TypeName} (used : ds.Uses c t)
    (fuel : Nat) {k : KnownTypes} (settled : Settled ds c k) :
    Leads (Registration.register ds fuel t) k (fun _ after => Settled ds c after)
      (fun _ => True) := by
  have leaves := Registration.register_leaves Declarations.uses_closed fuel used
    settled.described
  apply leaves.imp
  intro id after left
  exact ⟨left.described, settled.sized.keeps settled.described left.keeps⟩

section

variable {ds ds' : Declarations} {name : String} {c c' : Contract}
  {decode decode' : String → String} {fuel fuel' : Nat}

/-- What holds of both extractions between two variables. -/
def BothSettled (ds : Declarations) (c : Contract) (ds' : Declarations) (c' : Contract)
    (k k' : KnownTypes) : Prop :=
  k.Alike (ds.Renames c ds') (ds.Referred c) k' ∧ Settled ds c k ∧ Settled ds' c' k'

/-- Both extractions after some of the variables. -/
structure Progress.Alike (ds : Declarations) (c : Contract) (ds' : Declarations) (c' : Contract)
    (p p' : Progress) : Prop where
  known : BothSettled ds c ds' c' p.known p'.known
  items : List.Forall₂
    (fun a a' : StorageItem => a.label = a'.label ∧ ds.Renames c ds' a.type a'.type)
    p.items p'.items

/-- Steps that change nothing but what is known of sizes. -/
lemma sizing_inStep {α α' : Type} {m : Registering α} {m' : Registering α'}
    {fail fail' : ResolutionError → Prop}
    (left : ∀ k, Sized k → Leads m k (fun _ after => Sized after ∧ SizesMore k after) fail)
    (right : ∀ k, Sized k → Leads m' k (fun _ after => Sized after ∧ SizesMore k after) fail') :
    InStep False (BothSettled ds c ds' c') (fun _ _ => True) m m' := by
  rintro k k' ⟨alike, settled, settled'⟩
  cases ran : m.run k with
  | error e => exact .failed_left not_false e _
  | ok r =>
    cases ran' : m'.run k' with
    | error e' => exact .failed_right not_false _ e'
    | ok r' =>
      obtain ⟨sized, more⟩ := leads_of_ok (left k settled.sized) ran
      obtain ⟨sized', more'⟩ := leads_of_ok (right k' settled'.sized) ran'
      exact .ok ⟨trivial, alike.sizesMore more more',
        ⟨settled.described.sizesMore more, sized⟩, settled'.described.sizesMore more', sized'⟩

lemma footprint_inStep (i i' : TypeId) :
    InStep False (BothSettled ds c ds' c') (fun _ _ => True) (Sizing.footprint i)
      (Sizing.footprint i') := by
  apply sizing_inStep
  · intro k sized
    exact (Sizing.footprint_finds i sized).imp fun _ _ h => ⟨h.sized, h.more⟩
  · intro k sized
    exact (Sizing.footprint_finds i' sized).imp fun _ _ h => ⟨h.sized, h.more⟩

lemma sizeAll_inStep (is is' : List TypeId) :
    InStep False (BothSettled ds c ds' c') (fun _ _ => True) (Sizing.sizeAll is)
      (Sizing.sizeAll is') := by
  apply sizing_inStep
  · intro k sized
    exact (Sizing.sizeAll_finds is sized).imp fun _ _ h => ⟨h.1, h.2.1⟩
  · intro k sized
    exact (Sizing.sizeAll_finds is' sized).imp fun _ _ h => ⟨h.1, h.2.1⟩

variable (h : ds.ExtendedBy name c ds') (wellNamed : ds.WellNamed c) (hc : c.Extends c')

include h wellNamed hc

lemma placeVariable_extended (fuel fuel' : Nat) {v : Variable} (used : ds.Uses c v.type)
    (free free' : Position) :
    InStep False (BothSettled ds c ds' c')
      (fun placed placed' => ds.Renames c ds' placed.1 placed'.1)
      (placeVariable ds fuel v free) (placeVariable ds' fuel' v free') := by
  have registered : InStep False (KnownTypes.Alike (ds.Renames c ds') (ds.Referred c))
      (ds.Renames c ds') (Registration.register ds fuel v.type)
      (Registration.register ds' fuel' v.type) :=
    (h.sideBySide wellNamed).register False.elim ⟨rfl, used⟩
  have both := registered.keeping (fun k => register_settled used fuel (k := k))
    (fun k => register_settled (h.uses hc used) fuel' (k := k))
  apply inStep_bind both
  intro i i' hi
  apply inStep_bind (footprint_inStep i i')
  intro f f' _
  cases free.place f with
  | mk start next =>
    cases start with
    | none => exact inStep_throw_left not_false _ _
    | some start =>
      cases free'.place f' with
      | mk start' next' =>
        cases start' with
        | none => exact inStep_throw_right not_false _ _
        | some start' => exact inStep_pure hi

lemma addVariable_extended {p p' : Progress} (hp : p.Alike ds c ds' c' p') (base base' : Contract)
    {v : Variable} (used : ds.Uses c v.type) :
    EndAlike False (Progress.Alike ds c ds' c') (addVariable ds decode fuel p base v)
      (addVariable ds' decode' fuel' p' base' v) := by
  have placed := placeVariable_extended h wellNamed hc fuel fuel' used p.free p'.free _ _ hp.known
  rw [addVariable, addVariable]
  apply EndAlike.bind (located_alike _ _ placed)
  rintro ⟨⟨type, start, next⟩, known⟩ ⟨⟨type', start', next'⟩, known'⟩ ⟨types, hk⟩
  exact .ok ⟨hk, List.rel_append hp.items (.cons ⟨rfl, types⟩ .nil)⟩

lemma addVariables_extended {bases bases' : List Contract} (found : ds.lineage c = .ok bases)
    (same : List.Forall₂ Contract.Extends bases bases') {p p' : Progress}
    (hp : p.Alike ds c ds' c' p') :
    EndAlike False (Progress.Alike ds c ds' c')
      (addVariables ds decode fuel (variablesOf bases) p)
      (addVariables ds' decode' fuel' (variablesOf bases') p') := by
  have stored : List.Forall₂ (fun q q' => q.2 = q'.2 ∧ ds.Uses c q.2.type) (variablesOf bases)
      (variablesOf bases') := by
    have alike := List.forall₂_iff_zip.1 (Declarations.ExtendedBy.variablesOf_alike same)
    refine List.forall₂_iff_zip.2 ⟨alike.1, fun place => ⟨alike.2 place, ?_⟩⟩
    exact Declarations.uses_variable found _ (List.of_mem_zip place).1
  refine EndAlike.foldlM stored ?_ hp
  rintro ⟨base, v⟩ ⟨base', _⟩ ⟨rfl, used⟩ r r' hr
  exact addVariable_extended h wellNamed hc hr base base' used

/-- Where both layouts can be extracted, they have the same labels and the same structure. -/
lemma layout_extended (decode decode' : String → String) :
    EndAlike False (Layout.Alike (ds.Renames c ds')) (layout ds decode c)
      (layout ds' decode' c') := by
  rw [layout, layout]
  cases found : ds.lineage c with
  | error cause => exact .failed_left not_false _ _
  | ok bases =>
    obtain ⟨bases', found', same⟩ := h.lineage_ok hc found
    rw [found']
    have start : Progress.start.Alike ds c ds' c' .start :=
      ⟨⟨.empty, ⟨.empty, .empty⟩, .empty, .empty⟩, .nil⟩
    apply EndAlike.bind (addVariables_extended h wellNamed hc found same start)
    intro p p' hp
    apply EndAlike.bind (located_alike _ _ (sizeAll_inStep _ _ _ _ hp.known))
    rintro ⟨_, known⟩ ⟨_, known'⟩ ⟨_, hk⟩
    exact .ok ⟨hp.items, hk.1.types⟩

end

end Extraction

end UpgradeSafety
