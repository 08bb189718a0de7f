import UpgradeSafety.Proofs.Extraction.Annotations
import UpgradeSafety.Proofs.Tables

/-!
# What registration leaves behind

Every id that has been entered is accounted for by an annotation in use, apart
from the structs whose members are still being registered. What was known before
an annotation is registered is left alone.
-/

namespace UpgradeSafety

/-- An annotation in use gives an id its kind and its size rule, and the ids inside it are known. -/
structure Account (ds : Declarations) (uses : TypeName → Prop) (types : Table TypeItem)
    (id : TypeId) (kind : TypeKind) (rule : SizeRule) (t : TypeName) (ids : List TypeId) :
    Prop where
  used : uses t
  named : ds.idOf? t = some id
  inner : (ds.inside t).map ds.idOf? = ids.map some
  describes : Describes id t (ds.declarationOf? t) ids kind rule
  known : ∀ x ∈ ids, ∃ item, types.find? x = some item

/-- Some annotation in use accounts for the kind and the size rule of an id. -/
def Accounts (ds : Declarations) (uses : TypeName → Prop) (types : Table TypeItem) (id : TypeId)
    (kind : TypeKind) (rule : SizeRule) : Prop :=
  ∃ t ids, Account ds uses types id kind rule t ids

lemma Accounts.mono {ds : Declarations} {uses : TypeName → Prop} {types types' : Table TypeItem}
    {id : TypeId} {kind : TypeKind} {rule : SizeRule} (h : Accounts ds uses types id kind rule)
    (grows : ∀ {x item}, types.find? x = some item → ∃ later, types'.find? x = some later) :
    Accounts ds uses types' id kind rule := by
  obtain ⟨t, ids, account⟩ := h
  refine ⟨t, ids, { account with known := fun x hx => ?_ }⟩
  obtain ⟨item, found⟩ := account.known x hx
  exact grows found

/-- Everything known but the pending ids is accounted for. -/
structure Described (ds : Declarations) (uses : TypeName → Prop) (pending : TypeId → Prop)
    (k : KnownTypes) : Prop where
  accounted : ∀ {id item}, k.types.find? id = some item → ¬ pending id →
    ∃ rule, k.sizeRules.find? id = some rule ∧ Accounts ds uses k.types id item.kind rule
  entered : ∀ {id rule}, k.sizeRules.find? id = some rule → ∃ item, k.types.find? id = some item

/-- What was known is still known. -/
structure Keeps (k after : KnownTypes) : Prop where
  types : ∀ {id item}, k.types.find? id = some item → after.types.find? id = some item
  rules : ∀ {id item rule}, k.types.find? id = some item → k.sizeRules.find? id = some rule →
    after.sizeRules.find? id = some rule
  footprints : after.footprints = k.footprints

namespace Keeps

lemma refl (k : KnownTypes) : Keeps k k := ⟨fun h => h, fun _ h => h, rfl⟩

lemma trans {k between after : KnownTypes} (first : Keeps k between)
    (second : Keeps between after) : Keeps k after where
  types h := second.types (first.types h)
  rules h hr := second.rules (first.types h) (first.rules h hr)
  footprints := second.footprints.trans first.footprints

lemma putOrigin (k : KnownTypes) (id : TypeId) (node : NodeId) : Keeps k (k.putOrigin id node) :=
  ⟨fun h => h, fun _ h => h, rfl⟩

lemma putType {k after : KnownTypes} (kept : Keeps k after) {id : TypeId}
    (fresh : k.types.find? id = none) (label : String) (kind : TypeKind) :
    Keeps k (after.putType id label kind) where
  types {x item} h := by
    have differs := Table.ne_of_find? fresh h
    exact (Table.find?_insert_of_ne after.types differs _).trans (kept.types h)
  rules := kept.rules
  footprints := kept.footprints

lemma putSizeRule {k after : KnownTypes} (kept : Keeps k after) {id : TypeId}
    (fresh : k.types.find? id = none) (rule : SizeRule) :
    Keeps k (after.putSizeRule id rule) where
  types := kept.types
  rules {x item _} h hr := by
    have differs := Table.ne_of_find? fresh h
    exact (Table.find?_insert_of_ne after.sizeRules differs _).trans (kept.rules h hr)
  footprints := kept.footprints

end Keeps

/-- An entered type has an item, and the others have theirs still. -/
lemma KnownTypes.find?_putType {k : KnownTypes} (id : TypeId) (label : String) (kind : TypeKind)
    {x : TypeId} (h : x = id ∨ ∃ item, k.types.find? x = some item) :
    ∃ item, (k.putType id label kind).types.find? x = some item := by
  by_cases same : x = id
  · exact ⟨_, by rw [same]; exact Table.find?_insert_self _ _ _⟩
  · obtain ⟨item, found⟩ := h.resolve_left same
    exact ⟨item, (Table.find?_insert_of_ne k.types same _).trans found⟩

namespace Described

variable {ds : Declarations} {uses : TypeName → Prop} {pending : TypeId → Prop} {k : KnownTypes}

lemma empty : Described ds uses pending .empty where
  accounted h := by cases h
  entered h := by cases h

lemma putOrigin (h : Described ds uses pending k) (id : TypeId) (node : NodeId) :
    Described ds uses pending (k.putOrigin id node) := ⟨h.accounted, h.entered⟩

/-- While an id is pending nothing is asked of it. -/
lemma suspend (h : Described ds uses pending k) (id : TypeId) :
    Described ds uses (fun x => pending x ∨ x = id) k where
  accounted found ready := h.accounted found fun hp => ready (Or.inl hp)
  entered := h.entered

lemma putPending (h : Described ds uses pending k) {id : TypeId} (label : String)
    (kind : TypeKind) :
    Described ds uses (fun x => pending x ∨ x = id) (k.putType id label kind) where
  accounted {x item} found ready := by
    have differs : x ≠ id := fun hx => ready (Or.inr hx)
    have found := (Table.find?_insert_of_ne k.types differs _).symm.trans found
    obtain ⟨rule, hr, account⟩ := h.accounted found fun hp => ready (Or.inl hp)
    exact ⟨rule, hr, account.mono fun hy =>
      KnownTypes.find?_putType id label kind (Or.inr ⟨_, hy⟩)⟩
  entered hr := KnownTypes.find?_putType id label kind (Or.inr (h.entered hr))

/-- What is pending is settled by an annotation that describes it. -/
lemma settle {id : TypeId} (h : Described ds uses (fun x => pending x ∨ x = id) k)
    {kind : TypeKind} {rule : SizeRule} (account : Accounts ds uses k.types id kind rule)
    (label : String) :
    Described ds uses pending ((k.putType id label kind).putSizeRule id rule) where
  accounted {x item} found ready := by
    by_cases same : x = id
    · subst same
      have entered := found.symm.trans (Table.find?_insert_self k.types x _)
      cases entered
      exact ⟨rule, Table.find?_insert_self _ _ _, account.mono fun hy =>
        KnownTypes.find?_putType x label kind (Or.inr ⟨_, hy⟩)⟩
    · have found := (Table.find?_insert_of_ne k.types same _).symm.trans found
      obtain ⟨rule', hr, account'⟩ := h.accounted found fun hp => hp.elim ready same
      exact ⟨rule', (Table.find?_insert_of_ne k.sizeRules same _).trans hr, account'.mono fun hy =>
        KnownTypes.find?_putType id label kind (Or.inr ⟨_, hy⟩)⟩
  entered {x rule'} hr := by
    by_cases same : x = id
    · exact KnownTypes.find?_putType id label kind (Or.inl same)
    · have old := (Table.find?_insert_of_ne k.sizeRules same _).symm.trans hr
      exact KnownTypes.find?_putType id label kind (Or.inr (h.entered old))

end Described

namespace Registration

open Registering

variable {ds : Declarations} {uses : TypeName → Prop}

/-- What one run of registration leaves behind. -/
structure Leaves (ds : Declarations) (uses : TypeName → Prop) (pending : TypeId → Prop)
    (k : KnownTypes) (t : TypeName) (id : TypeId) (after : KnownTypes) : Prop where
  described : Described ds uses pending after
  keeps : Keeps k after
  entered : ∃ item, after.types.find? id = some item
  named : ds.idOf? t = some id

/-- A type that is being described is pending, and kept out of what was known. -/
lemma opened_described {pending : TypeId → Prop} {k : KnownTypes} {id : TypeId}
    (known : Described ds uses pending k) (fresh : k.types.find? id = none) (label : String)
    (t : TypeName) (d : Option Declaration) :
    Described ds uses (fun x => pending x ∨ x = id) (opened id label k t d) ∧
      Keeps k (opened id label k t d) := by
  cases t with
  | declared i node name desc =>
    cases d with
    | none => exact ⟨known.suspend id, .refl k⟩
    | some d =>
      cases d with
      | struct s => exact ⟨known.putPending label _, (Keeps.refl k).putType fresh label _⟩
      | _ => exact ⟨known.suspend id, .refl k⟩
  | _ => exact ⟨known.suspend id, .refl k⟩

/-- A new annotation in use is described, given how the annotations inside it are registered. -/
lemma describe_leaves {inside : TypeName → Registering TypeId} {t : TypeName} (used : uses t)
    (each : ∀ u ∈ ds.inside t, ∀ pending k, Described ds uses pending k →
      Leads (inside u) k (Leaves ds uses pending k u) (fun _ => True))
    {pending : TypeId → Prop} {k : KnownTypes} (known : Described ds uses pending k)
    {id : TypeId} (named : ds.idOf? t = some id) (fresh : k.types.find? id = none)
    (label : String) :
    Leads (describe inside id label t (ds.declarationOf? t)) k
      (fun described last => Leaves ds uses pending k t id
        ((last.putType id label described.1).putSizeRule id described.2)) (fun _ => True) := by
  obtain ⟨suspended, kept⟩ := opened_described known fresh label t (ds.declarationOf? t)
  refine Leads.imp (leads_describe inside
    (fun done ids after => Described ds uses (fun x => pending x ∨ x = id) after ∧
      Keeps k after ∧ done.map ds.idOf? = ids.map some ∧
      ∀ x ∈ ids, ∃ item, after.types.find? x = some item)
    (fun done u rest whole ids after h => ?_) (fun _ => trivial) ⟨suspended, kept, rfl, by simp⟩)
    fun described last h => ?_
  · obtain ⟨still, kept, ids_eq, inner⟩ := h
    have hu : u ∈ ds.inside t := by
      rw [Declarations.inside, whole]
      simp
    refine (each u hu _ after still).imp fun x last h => ⟨h.described, kept.trans h.keeps, ?_, ?_⟩
    · simp [ids_eq, h.named]
    · intro y hy
      rcases List.mem_append.1 hy with hy | hy
      · obtain ⟨item, found⟩ := inner y hy
        exact ⟨item, h.keeps.types found⟩
      · rw [List.mem_singleton.1 hy]
        exact h.entered
  · obtain ⟨ids, ⟨still, kept, inner, known⟩, describes⟩ := h
    exact
      { described := still.settle ⟨t, ids, used, named, inner, describes, known⟩ label
        keeps := (kept.putType fresh label _).putSizeRule fresh _
        entered := KnownTypes.find?_putType id label _ (Or.inl rfl)
        named }

/-- An annotation in use, registered with everything inside it. -/
lemma register_leaves (closed : ∀ t, uses t → ∀ u ∈ ds.inside t, uses u) (fuel : Nat)
    {t : TypeName} (used : uses t) {pending : TypeId → Prop} {k : KnownTypes}
    (known : Described ds uses pending k) :
    Leads (register ds fuel t) k (Leaves ds uses pending k t) (fun _ => True) := by
  induction fuel generalizing t pending k with
  | zero => exact trivial
  | succ fuel ih =>
    refine leads_register (fun _ => trivial) fun id named => ?_
    have recorded : ∀ after, Described ds uses pending after → Keeps k after →
        (after.types.contains id = true → Leaves ds uses pending k t id after) ∧
        (after.types.contains id = false →
          Leads (describe (register ds fuel) id (t.description.text.getD id) t
            (ds.declarationOf? t)) after
            (fun described last => Leaves ds uses pending k t id
              ((last.putType id (t.description.text.getD id) described.1).putSizeRule id
                described.2)) (fun _ => True)) := by
      intro after described kept
      constructor
      · intro old
        exact ⟨described, kept, Table.contains_iff.1 old, named⟩
      · intro new
        have fresh : after.types.find? id = none := by
          simpa [Table.contains, Option.isSome_eq_false_iff] using new
        have run := describe_leaves used (fun u hu _ _ h => ih (closed t used u hu) h) described
          named fresh (t.description.text.getD id)
        exact run.imp fun _ _ h => { h with keeps := kept.trans h.keeps }
    exact leads_declarationOf? (fun _ => recorded k known (.refl k)) (fun _ => trivial)
      (fun node _ _ => recorded _ (known.putOrigin id node) (.putOrigin k id node))
      (fun _ _ _ => recorded k known (.refl k)) (fun _ _ _ _ _ => trivial)

end Registration

end UpgradeSafety
