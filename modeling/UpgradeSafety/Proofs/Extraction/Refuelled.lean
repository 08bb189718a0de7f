import UpgradeSafety.Proofs.Extraction.Depth
import UpgradeSafety.Proofs.Tables

/-!
# Registrations with other fuel

Registering an annotation enters the ids that are foreseen for it. A registration that
ends with some fuel ends in the same way with the fuel that extraction gives it.
-/

namespace UpgradeSafety

namespace KnownTypes

/-- The ids that have been entered. -/
def ids (k : KnownTypes) : Finset TypeId := k.types.keys.toFinset

variable {k : KnownTypes} {id : TypeId}

lemma contains_iff_mem_ids : k.types.contains id = true ↔ id ∈ k.ids := by
  rw [ids, List.mem_toFinset, Table.contains_iff_mem_keys]

lemma ids_putType (k : KnownTypes) (id : TypeId) (label : String) (kind : TypeKind) :
    (k.putType id label kind).ids = insert id k.ids := by
  ext x
  simp only [ids, List.mem_toFinset, Finset.mem_insert]
  exact Table.mem_keys_insertEntry

@[simp] lemma ids_putSizeRule (k : KnownTypes) (id : TypeId) (rule : SizeRule) :
    (k.putSizeRule id rule).ids = k.ids := rfl

@[simp] lemma ids_putOrigin (k : KnownTypes) (id : TypeId) (node : NodeId) :
    (k.putOrigin id node).ids = k.ids := rfl

end KnownTypes

namespace Registration

open Registering

variable {ds : Declarations} {id : TypeId} {t : TypeName}

lemma ids_opened (k : KnownTypes) (id : TypeId) (label : String) (t : TypeName)
    (d : Option Declaration) :
    (opened id label k t d).ids = Declarations.openedIds k.ids id t d := by
  cases t with
  | declared i node name desc =>
    cases d with
    | none => rfl
    | some d =>
      cases d with
      | struct s => exact KnownTypes.ids_putType k id label _
      | _ => rfl
  | _ => rfl

/-! ## Registrations that end -/

lemma run_members {inside : TypeName → Registering TypeId} {ms : List Variable}
    {members : List StructMember} {k after : KnownTypes}
    (labels : members.map StructMember.label = ms.map Variable.name)
    (ran : ((ms.map Variable.type).mapM inside).run k =
      .ok (members.map StructMember.type, after)) :
    (ms.mapM fun (m : Variable) => do return StructMember.mk m.name (← inside m.type)).run k =
      .ok (members, after) := by
  induction ms generalizing members k with
  | nil =>
    obtain ⟨none, rfl⟩ := run_mapM_nil ran
    rw [List.map_eq_nil_iff.1 none]
    rfl
  | cons m ms ih =>
    obtain ⟨x, xs, between, parts, first, others⟩ := run_mapM_cons ran
    cases members with
    | nil => cases parts
    | cons member members =>
      obtain ⟨rfl, rfl⟩ := List.cons.inj parts
      obtain ⟨label, labels⟩ := List.cons.inj labels
      apply run_mapM_cons_of_ok _ (ih labels others)
      rw [run_bind_of_ok first, ← label]
      rfl

lemma run_elementaryFootprint {f : Footprint} (size : Footprint.ofElementary? id = some f)
    (k : KnownTypes) : (elementaryFootprint id).run k = .ok (f, k) := by
  rw [elementaryFootprint, size]
  rfl

/-- An annotation is described by what the annotations directly inside it are registered as. -/
lemma run_describe {inside : TypeName → Registering TypeId} {label : String}
    {d : Option Declaration} {ids : List TypeId} {kind : TypeKind} {rule : SizeRule}
    {k after : KnownTypes}
    (ran : ((t.parts d).mapM inside).run (opened id label k t d) = .ok (ids, after))
    (describes : Describes id t d ids kind rule) :
    (describe inside id label t d).run k = .ok ((kind, rule), after) := by
  cases describes with
  | elementary size =>
    obtain ⟨_, rfl⟩ := run_mapM_nil ran
    exact run_bind_of_ok (run_elementaryFootprint size _)
  | function size =>
    obtain ⟨_, rfl⟩ := run_mapM_nil ran
    exact run_bind_of_ok (run_elementaryFootprint size _)
  | mapping key value =>
    obtain ⟨_, _, between, parts, first, others⟩ := run_mapM_cons ran
    obtain ⟨_, _, last, parts', second, none⟩ := run_mapM_cons others
    obtain ⟨rfl, rfl⟩ := run_mapM_nil none
    cases parts'
    cases parts
    exact (run_bind_of_ok first).trans (run_bind_of_ok second)
  | dynamicArray element length =>
    obtain ⟨_, _, between, parts, first, none⟩ := run_mapM_cons ran
    obtain ⟨rfl, rfl⟩ := run_mapM_nil none
    cases parts
    refine (run_bind_of_ok first).trans ?_
    rw [length]
    rfl
  | fixedArray element length =>
    obtain ⟨_, _, between, parts, first, none⟩ := run_mapM_cons ran
    obtain ⟨rfl, rfl⟩ := run_mapM_nil none
    cases parts
    refine (run_bind_of_ok first).trans ?_
    rw [length]
    rfl
  | contract c =>
    obtain ⟨_, rfl⟩ := run_mapM_nil ran
    rfl
  | enum e =>
    obtain ⟨_, rfl⟩ := run_mapM_nil ran
    rfl
  | valueType v underlying =>
    obtain ⟨_, _, between, parts, first, none⟩ := run_mapM_cons ran
    obtain ⟨rfl, rfl⟩ := run_mapM_nil none
    cases parts
    exact run_bind_of_ok first
  | struct s members labels =>
    have entered : (modify fun known => known.putType id label (.struct none) :
        Registering Unit).run k = .ok ((), k.putType id label (.struct none)) := rfl
    exact (run_bind_of_ok entered).trans (run_bind_of_ok (run_members labels ran))

/-- What is described has had the annotations directly inside it registered. -/
lemma describe_eq_ok {inside : TypeName → Registering TypeId} {label : String}
    {d : Option Declaration} {described : TypeKind × SizeRule} {k after : KnownTypes}
    (ran : (describe inside id label t d).run k = .ok (described, after)) :
    ∃ ids, ((t.parts d).mapM inside).run (opened id label k t d) = .ok (ids, after) ∧
      Describes id t d ids described.1 described.2 := by
  have leads : Leads (describe inside id label t d) k
      (fun described after => ∃ ids,
        ((t.parts d).mapM inside).run (opened id label k t d) = .ok (ids, after) ∧
          Describes id t d ids described.1 described.2) (fun _ => True) := by
    apply leads_describe inside (fun done ids after =>
      (done.mapM inside).run (opened id label k t d) = .ok (ids, after)) _ (fun _ => trivial) rfl
    intro done u rest _ ids between earlier
    exact leads_of_runs fun x last ran => run_mapM_concat earlier ran
  exact leads_of_ok leads ran

/-- What is left behind when an annotation has been described. -/
def settled (id : TypeId) (t : TypeName) (described : TypeKind × SizeRule) (k : KnownTypes) :
    KnownTypes :=
  (k.putType id (t.description.text.getD id) described.1).putSizeRule id described.2

lemma ids_settled (id : TypeId) (t : TypeName) (described : TypeKind × SizeRule)
    (k : KnownTypes) : (settled id t described k).ids = insert id k.ids := by
  rw [settled, KnownTypes.ids_putSizeRule, KnownTypes.ids_putType]

lemma run_register_known {fuel : Nat} {d : Option Declaration} {k noted : KnownTypes}
    (named : ds.idOf? t = some id) (recorded : (declarationOf? ds id t).run k = .ok (d, noted))
    (old : noted.types.contains id = true) :
    (register ds (fuel + 1) t).run k = .ok (id, noted) := by
  obtain ⟨raw, identified, rfl⟩ := Option.map_eq_some_iff.1 named
  rw [register, identified]
  refine (run_bind_of_ok recorded).trans ((run_bind_of_ok rfl).trans ?_)
  rw [if_pos old]
  rfl

lemma run_register_new {fuel : Nat} {d : Option Declaration} {k noted last : KnownTypes}
    {described : TypeKind × SizeRule} (named : ds.idOf? t = some id)
    (recorded : (declarationOf? ds id t).run k = .ok (d, noted))
    (new : noted.types.contains id = false)
    (ran : (describe (register ds fuel) id (t.description.text.getD id) t d).run noted =
      .ok (described, last)) :
    (register ds (fuel + 1) t).run k = .ok (id, settled id t described last) := by
  obtain ⟨raw, identified, rfl⟩ := Option.map_eq_some_iff.1 named
  rw [register, identified]
  refine (run_bind_of_ok recorded).trans ((run_bind_of_ok rfl).trans ?_)
  rw [new, if_neg Bool.false_ne_true]
  exact run_bind_of_ok ran

/-- A registration has recorded the declaration, and described the annotation if its id was new. -/
lemma register_eq_ok {fuel : Nat} {k after : KnownTypes}
    (ran : (register ds (fuel + 1) t).run k = .ok (id, after)) :
    ds.idOf? t = some id ∧ ∃ d noted, (declarationOf? ds id t).run k = .ok (d, noted) ∧
      (noted.types.contains id = true ∧ after = noted ∨
        noted.types.contains id = false ∧ ∃ described last,
          (describe (register ds fuel) id (t.description.text.getD id) t d).run noted =
            .ok (described, last) ∧ after = settled id t described last) := by
  rw [register] at ran
  cases identified : t.description.identifier with
  | none => rw [identified] at ran; cases ran
  | some raw =>
    rw [identified] at ran
    have named : ds.idOf? t = some (ds.canonicalId raw) := by
      rw [Declarations.idOf?, identified, Option.map_some]
    obtain ⟨d, noted, recorded, ran⟩ := run_bind_eq_ok ran
    have got : (get : Registering KnownTypes).run noted = .ok (noted, noted) := rfl
    rw [run_bind_of_ok got] at ran
    cases known : noted.types.contains (ds.canonicalId raw) with
    | true =>
      rw [if_pos known] at ran
      obtain ⟨rfl, rfl⟩ := Prod.mk.inj (Except.ok.inj ran)
      exact ⟨named, d, _, recorded, Or.inl ⟨known, rfl⟩⟩
    | false =>
      rw [known, if_neg Bool.false_ne_true] at ran
      obtain ⟨described, last, describes, ended⟩ := run_bind_eq_ok ran
      obtain ⟨rfl, rfl⟩ := Prod.mk.inj (Except.ok.inj ended)
      exact ⟨named, d, noted, recorded, Or.inr ⟨known, described, last, describes, rfl⟩⟩

/-- Recording the declaration of an annotation enters no id. -/
lemma declarationOf?_eq_ok {d : Option Declaration} {k noted : KnownTypes}
    (ran : (declarationOf? ds id t).run k = .ok (d, noted)) :
    d = ds.declarationOf? t ∧ noted.ids = k.ids := by
  have leads : Leads (declarationOf? ds id t) k
      (fun d noted => d = ds.declarationOf? t ∧ noted.ids = k.ids) (fun _ => True) :=
    leads_declarationOf? (fun _ => ⟨rfl, rfl⟩) (fun _ => trivial) (fun _ _ _ => ⟨rfl, rfl⟩)
      (fun _ _ _ => ⟨rfl, rfl⟩) (fun _ _ _ _ _ => trivial)
  exact leads_of_ok leads ran

lemma unknown_of_new {k noted : KnownTypes} (same : noted.ids = k.ids)
    (new : noted.types.contains id = false) : id ∉ k.ids := by
  rw [← same, ← KnownTypes.contains_iff_mem_ids, new]
  exact Bool.false_ne_true

/-! ## The ids that are entered -/

/-- Annotations enter the ids that are foreseen, if each of them does. -/
lemma mapM_entering {fuel : Nat} {ts : List TypeName}
    (each : ∀ u ∈ ts, ∀ (k after : KnownTypes) (id : TypeId),
      (register ds fuel u).run k = .ok (id, after) → ds.entering fuel u k.ids = some after.ids)
    {k after : KnownTypes} {ids : List TypeId}
    (ran : (ts.mapM (register ds fuel)).run k = .ok (ids, after)) :
    ds.enteringAll fuel ts k.ids = some after.ids := by
  induction ts generalizing k ids with
  | nil =>
    obtain ⟨_, rfl⟩ := run_mapM_nil ran
    rfl
  | cons u ts ih =>
    obtain ⟨x, xs, between, _, first, others⟩ := run_mapM_cons ran
    have rest := ih (fun v hv => each v (List.mem_cons_of_mem u hv)) others
    exact Option.bind_eq_some_iff.2 ⟨_, each u List.mem_cons_self k between x first, rest⟩

/-- Registering an annotation enters the ids that are foreseen. -/
lemma register_entering {fuel : Nat} {k after : KnownTypes}
    (ran : (register ds fuel t).run k = .ok (id, after)) :
    ds.entering fuel t k.ids = some after.ids := by
  induction fuel generalizing t k after id with
  | zero => cases ran
  | succ fuel ih =>
    obtain ⟨named, d, noted, recorded, known | fresh⟩ := register_eq_ok ran
    · obtain ⟨old, rfl⟩ := known
      obtain ⟨_, same⟩ := declarationOf?_eq_ok recorded
      rw [same]
      rw [KnownTypes.contains_iff_mem_ids, same] at old
      exact Declarations.entering_known named old
    · obtain ⟨new, described, last, ran', rfl⟩ := fresh
      obtain ⟨ids, inner, _⟩ := describe_eq_ok ran'
      obtain ⟨rfl, same⟩ := declarationOf?_eq_ok recorded
      have enters := mapM_entering (fun u _ k after x => ih) inner
      rw [ids_opened, same] at enters
      rw [Declarations.entering_new named (unknown_of_new same new), ids_settled]
      exact Option.map_eq_some_iff.2 ⟨_, enters, rfl⟩

/-! ## Other fuel -/

/-- Annotations are registered in the same way, if each of them is wherever it is foreseen to. -/
lemma mapM_refuelled {fuel fuel' : Nat} {ts : List TypeName}
    (each : ∀ u ∈ ts, ∀ (k after : KnownTypes) (id : TypeId) (last : Finset TypeId),
      ds.entering fuel' u k.ids = some last → (register ds fuel u).run k = .ok (id, after) →
      (register ds fuel' u).run k = .ok (id, after))
    {k after : KnownTypes} {ids : List TypeId} {last : Finset TypeId}
    (enough : ds.enteringAll fuel' ts k.ids = some last)
    (ran : (ts.mapM (register ds fuel)).run k = .ok (ids, after)) :
    (ts.mapM (register ds fuel')).run k = .ok (ids, after) := by
  induction ts generalizing k ids with
  | nil => exact ran
  | cons u ts ih =>
    obtain ⟨x, xs, between, rfl, first, others⟩ := run_mapM_cons ran
    obtain ⟨middle, enters, rest⟩ := Option.bind_eq_some_iff.1 enough
    have first' := each u List.mem_cons_self k between x middle enters first
    cases (register_entering first').symm.trans enters
    apply run_mapM_cons_of_ok first'
    exact ih (fun v hv => each v (List.mem_cons_of_mem u hv)) rest others

/-- Registration is the same with any fuel with which it is foreseen to come to an end. -/
lemma register_refuelled {fuel fuel' : Nat} {k after : KnownTypes} {last : Finset TypeId}
    (enough : ds.entering fuel' t k.ids = some last)
    (ran : (register ds fuel t).run k = .ok (id, after)) :
    (register ds fuel' t).run k = .ok (id, after) := by
  induction fuel' generalizing fuel t k after id last with
  | zero => cases enough
  | succ fuel' ih =>
    cases fuel with
    | zero => cases ran
    | succ fuel =>
      obtain ⟨named, d, noted, recorded, known | fresh⟩ := register_eq_ok ran
      · obtain ⟨old, rfl⟩ := known
        exact run_register_known named recorded old
      · obtain ⟨new, described, between, ran', rfl⟩ := fresh
        apply run_register_new named recorded new
        obtain ⟨ids, inner, describes⟩ := describe_eq_ok ran'
        refine run_describe ?_ describes
        obtain ⟨rfl, same⟩ := declarationOf?_eq_ok recorded
        rw [Declarations.entering_new named (unknown_of_new same new)] at enough
        obtain ⟨middle, enters, _⟩ := Option.map_eq_some_iff.1 enough
        rw [← same, ← ids_opened noted id (t.description.text.getD id)] at enters
        exact mapM_refuelled (fun u _ k after x last => ih) enters inner

/-- A registration that ends with some fuel ends likewise with that of an extraction. -/
lemma register_fuelled {c : Contract} (used : ds.Uses c t) {fuel : Nat} {k after : KnownTypes}
    (ran : (register ds fuel t).run k = .ok (id, after)) :
    (register ds (ds.registrationFuel c) t).run k = .ok (id, after) :=
  register_refuelled (used.entering_enough (register_entering ran)) ran

end Registration

end UpgradeSafety
