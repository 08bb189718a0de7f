import UpgradeSafety.Proofs.Extraction.Layouts
import UpgradeSafety.Proofs.Extraction.Refuelled
import UpgradeSafety.Proofs.Extraction.SizingCycles

/-!
# How registration ends

Registration goes from an annotation to those inside it, and by way of a declared type to
annotations that are written elsewhere. A struct is entered before its members, so each is
passed through once. Between two structs only value types lead elsewhere, and where none of
them leads back to itself, registration comes to its end, with or without a bound.
-/

namespace UpgradeSafety

open Relation (ReflTransGen TransGen)

namespace Declarations

variable {ds : Declarations} {t u : TypeName} {v w : ValueTypeDefinition}

/-- A value type is named in an annotation, be it as the key, the value or the element of a type. -/
def Names (ds : Declarations) (t : TypeName) (v : ValueTypeDefinition) : Prop :=
  ∃ s ∈ t.written, ds.declarationOf? s = some (.valueType v)

/-- The annotation under a value type names another value type. -/
def StandsFor (ds : Declarations) (v w : ValueTypeDefinition) : Prop := ds.Names v.underlying w

/-- An annotation lies directly inside another one that does not name a struct. -/
def PassesTo (ds : Declarations) (t u : TypeName) : Prop :=
  u ∈ ds.inside t ∧ ∀ s, ds.declarationOf? t ≠ some (.struct s)

lemma Names.of_written (named : ds.Names u v) (within : u ∈ t.written) : ds.Names t v := by
  obtain ⟨s, mem, declared⟩ := named
  exact ⟨s, TypeName.written_subset within mem, declared⟩

/-- Without a struct, what is inside is a part of the annotation or the type under a value type. -/
lemma PassesTo.cases (h : ds.PassesTo t u) :
    u ∈ t.written ∧ u.count < t.count ∨ ∃ v, ds.Names t v ∧ u = v.underlying := by
  obtain ⟨mem, outside⟩ := h
  cases t with
  | mapping i key value d =>
    have parts : u ∈ (TypeName.mapping i key value d).written := by
      rcases List.mem_pair.1 mem with rfl | rfl <;> simp [TypeName.written, TypeName.mem_written]
    refine .inl ⟨parts, ?_⟩
    rcases List.mem_pair.1 mem with rfl | rfl <;> simp only [TypeName.count] <;> omega
  | array i element d =>
    rw [List.mem_singleton.1 mem]
    exact .inl ⟨by simp [TypeName.written, TypeName.mem_written], Nat.lt_succ_self _⟩
  | declared i node name d =>
    rw [inside] at mem
    cases declares : ds.declarationOf? (.declared i node name d) with
    | none => rw [declares] at mem; cases mem
    | some e =>
      rw [declares] at mem
      cases e with
      | contract c => cases mem
      | struct s => exact absurd declares (outside s)
      | enum e => cases mem
      | valueType v =>
        exact .inr ⟨v, ⟨_, TypeName.mem_written _, declares⟩, List.mem_singleton.1 mem⟩
  | elementary i name d => cases mem
  | function i d => cases mem

/-- A path without structs stays in an annotation or goes on from value type to value type. -/
lemma passed (path : TransGen ds.PassesTo t u) :
    u ∈ t.written ∧ u.count < t.count ∨
      ∃ v w, ds.Names t v ∧ ReflTransGen ds.StandsFor v w ∧ u ∈ w.underlying.written := by
  induction path with
  | single step =>
    rcases step.cases with part | ⟨v, named, rfl⟩
    · exact .inl part
    · exact .inr ⟨v, v, named, .refl, TypeName.mem_written _⟩
  | tail _ step ih =>
    rcases ih with ⟨within, fewer⟩ | ⟨v, w, named, stands, within⟩
    · rcases step.cases with ⟨deeper, least⟩ | ⟨x, names, rfl⟩
      · exact .inl ⟨TypeName.written_subset within deeper, least.trans fewer⟩
      · exact .inr ⟨x, x, names.of_written within, .refl, TypeName.mem_written _⟩
    · rcases step.cases with ⟨deeper, _⟩ | ⟨x, names, rfl⟩
      · exact .inr ⟨v, w, named, stands, TypeName.written_subset within deeper⟩
      · exact .inr ⟨v, x, named, stands.tail (names.of_written within), TypeName.mem_written _⟩

/-- Where no value type leads back to itself, no annotation does without a struct in between. -/
lemma not_passed_self (ended : ∀ v, ¬ TransGen ds.StandsFor v v) : ¬ TransGen ds.PassesTo t t := by
  intro cycle
  rcases passed cycle with ⟨_, fewer⟩ | ⟨v, w, named, stands, within⟩
  · exact Nat.lt_irrefl _ fewer
  · exact ended w (.head' (named.of_written within) stands)

/-- An annotation that names a struct has its id entered before what is inside it. -/
lemma openedIds_struct {s : StructDefinition} (ids : Finset TypeId) (id : TypeId)
    (declares : ds.declarationOf? t = some (.struct s)) :
    openedIds ids id t (ds.declarationOf? t) = insert id ids := by
  cases t with
  | declared i node name d =>
    rw [declares]
    rfl
  | _ => cases declares

lemma openedIds_other (ids : Finset TypeId) (id : TypeId)
    (outside : ∀ s, ds.declarationOf? t ≠ some (.struct s)) :
    openedIds ids id t (ds.declarationOf? t) = ids := by
  unfold openedIds
  split
  · next s declares => exact absurd declares (outside s)
  · rfl

end Declarations

namespace Registration

open Registering Declarations

variable {ds : Declarations} {types : Finset TypeName} {names : Finset TypeId}
  {translate : ResolutionError → ResolutionError}

/-! ## Registering without a bound -/

/-- One level of registering without a bound, which leaves what lies further in to `further`. -/
def level (ds : Declarations) (further : TypeName → Registering TypeId) (t : TypeName) :
    Registering TypeId := do
  match t.description.identifier with
  | none => throw (.missingTypeIdentifier t.id)
  | some raw =>
    let id := ds.canonicalId raw
    let declaration ← declarationOf? ds id t
    if (← get).types.contains id then return id
    let label := t.description.text.getD id
    let (kind, rule) ← describe further id label t declaration
    modify fun known => (known.putType id label kind).putSizeRule id rule
    return id

/-- Fuel is a number of levels behind which nothing ends. -/
lemma register_eq_levels (ds : Declarations) (fuel : Nat) :
    register ds fuel = (level ds)^[fuel] fun t => throw (.endlessType t.id) := by
  induction fuel with
  | zero => rfl
  | succ fuel ih =>
    rw [Function.iterate_succ_apply', ← ih]
    rfl

/-- Errors other than that a type never ends keep their names. -/
def KeepsNames (translate : ResolutionError → ResolutionError) : Prop :=
  ∀ cause, (∀ node, cause ≠ .endlessType node) → translate cause = cause

/-- A step by itself, which may fail in any way but that a type never ends. -/
lemma mirrors_self {α : Type} {inv : KnownTypes → Prop} {m : Registering α} {post : α → Prop}
    (ends : ∀ k, inv k → Leads m k (fun a after => post a ∧ inv after)
      (fun cause => translate cause = cause)) : Mirrors inv translate m m post := by
  intro k holds
  have h := ends k holds
  cases ran : m.run k with
  | error cause =>
    refine ⟨congrArg Except.error (leads_of_error h ran).symm, ?_⟩
    rw [Leads, ran]
    trivial
  | ok result =>
    refine ⟨rfl, ?_⟩
    rw [Leads, ran]
    exact leads_of_ok h ran

/-- The ids that have been entered are at least the given ones. -/
def Holds (ids : Finset TypeId) (k : KnownTypes) : Prop := ids ⊆ k.ids

lemma Holds.putType {ids : Finset TypeId} {k : KnownTypes} (h : Holds ids k) (id : TypeId)
    (label : String) (kind : TypeKind) : Holds ids (k.putType id label kind) := by
  rw [Holds, KnownTypes.ids_putType]
  exact h.trans (Finset.subset_insert id k.ids)

lemma declarationOf?_mirrors (kept : KeepsNames translate) (ids : Finset TypeId) (id : TypeId)
    (t : TypeName) :
    Mirrors (Holds ids) translate (declarationOf? ds id t) (declarationOf? ds id t)
      fun d => d = ds.declarationOf? t := by
  refine mirrors_self fun k holds => ?_
  exact leads_declarationOf? (fun _ => ⟨rfl, holds⟩) (fun _ => kept _ nofun)
    (fun _ _ _ => ⟨rfl, holds⟩) (fun _ _ _ => ⟨rfl, holds⟩) (fun _ _ _ _ _ => kept _ nofun)

lemma elementaryFootprint_mirrors (kept : KeepsNames translate) (ids : Finset TypeId)
    (id : TypeId) :
    Mirrors (Holds ids) translate (elementaryFootprint id) (elementaryFootprint id)
      fun _ => True := by
  refine mirrors_self fun k holds => ?_
  exact leads_elementaryFootprint (fun _ _ => ⟨trivial, holds⟩) (kept _ nofun)

/-- What is known may be changed first, in a way that the rest may rely on. -/
lemma mirrors_modify_bind {α : Type} {inv inv' : KnownTypes → Prop} {post : α → Prop}
    {change : KnownTypes → KnownTypes} {next' next : Registering α}
    (moves : ∀ k, inv k → inv' (change k)) (back : ∀ k, inv' k → inv k)
    (rest : Mirrors inv' translate next' next post) :
    Mirrors inv translate (do modify change; next') (do modify change; next) post := by
  intro k holds
  obtain ⟨same, ends⟩ := rest (change k) (moves k holds)
  refine ⟨same, ?_⟩
  rw [leads_bind, leads_modify]
  exact ends.imp fun a after ended => ⟨ended.1, back after ended.2⟩

variable {further further' : TypeName → Registering TypeId} {ids : Finset TypeId} {t : TypeName}

lemma describe_mirrors (kept : KeepsNames translate) {id : TypeId} (label : String)
    (each : ∀ u ∈ ds.inside t, Mirrors (Holds (openedIds ids id t (ds.declarationOf? t))) translate
      (further' u) (further u) fun _ => True) :
    Mirrors (Holds ids) translate (describe further' id label t (ds.declarationOf? t))
      (describe further id label t (ds.declarationOf? t)) fun _ => True := by
  cases t with
  | elementary i name desc =>
    exact mirrors_bind (elementaryFootprint_mirrors kept ids id) fun _ _ => mirrors_pure trivial
  | function i desc =>
    exact mirrors_bind (elementaryFootprint_mirrors kept ids id) fun _ _ => mirrors_pure trivial
  | mapping i key value desc =>
    refine mirrors_bind (each key List.mem_cons_self) fun _ _ => ?_
    refine mirrors_bind (each value (List.mem_cons_of_mem _ List.mem_cons_self)) fun _ _ => ?_
    exact mirrors_pure trivial
  | array i element desc =>
    refine mirrors_bind (each element List.mem_cons_self) fun element _ => ?_
    cases id.arrayLength? with
    | none => exact mirrors_throw (.unsupportedType id) (kept (.unsupportedType id) nofun).symm
    | some length => cases length <;> exact mirrors_pure trivial
  | declared i node name desc =>
    rw [inside] at each
    cases declares : ds.declarationOf? (.declared i node name desc) with
    | none => exact mirrors_throw (.unsupportedType id) (kept (.unsupportedType id) nofun).symm
    | some d =>
      rw [declares] at each
      cases d with
      | contract c => exact mirrors_pure trivial
      | enum e => exact mirrors_pure trivial
      | valueType v =>
        exact mirrors_bind (each v.underlying List.mem_cons_self) fun _ _ => mirrors_pure trivial
      | struct s =>
        have opens : ∀ k, Holds ids k →
            Holds (insert id ids) (k.putType id label (.struct none)) := by
          intro k holds
          rw [Holds, KnownTypes.ids_putType]
          exact Finset.insert_subset_insert id holds
        have back : ∀ k, Holds (insert id ids) k → Holds ids k := fun _ holds =>
          (Finset.subset_insert id ids).trans holds
        have member : ∀ m ∈ s.members, Mirrors (Holds (insert id ids)) translate
            (do return StructMember.mk m.name (← further' m.type))
            (do return StructMember.mk m.name (← further m.type)) fun _ => True :=
          fun m mem => mirrors_bind (each m.type (List.mem_map_of_mem mem)) fun _ _ =>
            mirrors_pure trivial
        exact mirrors_modify_bind opens back
          (mirrors_bind (mirrors_mapM s.members member) fun _ _ => mirrors_pure trivial)

/-- Two levels of registering end alike if what lies further in does, where the id is new. -/
lemma level_mirrors (kept : KeepsNames translate)
    (each : ∀ id, ds.idOf? t = some id → id ∉ ids → ∀ u ∈ ds.inside t,
      Mirrors (Holds (openedIds ids id t (ds.declarationOf? t))) translate
        (further' u) (further u) fun _ => True) :
    Mirrors (Holds ids) translate (level ds further' t) (level ds further t) fun _ => True := by
  rw [level, level]
  cases identified : t.description.identifier with
  | none => exact mirrors_throw _ (kept (.missingTypeIdentifier t.id) nofun).symm
  | some raw =>
    have named : ds.idOf? t = some (ds.canonicalId raw) := by
      rw [idOf?, identified, Option.map_some]
    refine mirrors_bind (declarationOf?_mirrors kept ids (ds.canonicalId raw) t) ?_
    rintro _ rfl
    refine mirrors_bind mirrors_get fun k holds => ?_
    cases known : k.types.contains (ds.canonicalId raw) with
    | true => exact mirrors_pure trivial
    | false =>
      have new : ds.canonicalId raw ∉ ids := fun old => unknown_of_new rfl known (holds old)
      refine mirrors_bind (describe_mirrors kept _ (each _ named new)) fun r _ => ?_
      have enters : ∀ k, Holds ids k → Holds ids ((k.putType (ds.canonicalId raw)
          (t.description.text.getD (ds.canonicalId raw)) r.1).putSizeRule
          (ds.canonicalId raw) r.2) := fun k holds => holds.putType _ _ r.1
      exact mirrors_bind (mirrors_modify enters) fun _ _ => mirrors_pure trivial

/-- An annotation is not among those that it is met inside of. -/
lemma not_around (ended : ∀ v, ¬ TransGen ds.StandsFor v v) {around : Finset TypeName}
    (mem : t ∈ types) (passed : ∀ v ∈ around, TransGen ds.PassesTo v t) :
    t ∉ around ∧ 0 < (types \ around).card := by
  have outside : t ∉ around := fun again => not_passed_self ended (passed t again)
  exact ⟨outside, Finset.card_pos.2 ⟨t, Finset.mem_sdiff.2 ⟨mem, outside⟩⟩⟩

/--
Whatever lies behind as many levels as there are annotations that may still be met before the next
struct, and all annotations once for each id that can still be entered, is not reached.
-/
lemma levels_mirror (ended : ∀ v, ¬ TransGen ds.StandsFor v v) (closed : ds.Encloses types names)
    (kept : KeepsNames translate) {around : Finset TypeName} {levels levels' : Nat}
    (mem : t ∈ types) (passed : ∀ v ∈ around, TransGen ds.PassesTo v t)
    (enough : (names \ ids).card * types.card + (types \ around).card ≤ levels)
    (enough' : (names \ ids).card * types.card + (types \ around).card ≤ levels') :
    Mirrors (Holds ids) translate ((level ds)^[levels'] further' t) ((level ds)^[levels] further t)
      fun _ => True := by
  induction levels generalizing t ids around levels' with
  | zero =>
    have here := (not_around ended mem passed).2
    omega
  | succ levels ih =>
    obtain ⟨outside, here⟩ := not_around ended mem passed
    cases levels' with
    | zero => omega
    | succ levels' =>
      rw [Function.iterate_succ_apply', Function.iterate_succ_apply']
      refine level_mirrors kept fun id named new u inner => ?_
      have mem' : u ∈ types := closed.inside t mem u inner
      by_cases struct : ∃ s, ds.declarationOf? t = some (.struct s)
      · -- The id of the struct is new, so all annotations may be met once more.
        obtain ⟨s, declares⟩ := struct
        rw [openedIds_struct ids id declares]
        have fewer : (names \ insert id ids).card < (names \ ids).card :=
          card_sdiff_lt (Finset.subset_insert id ids) (closed.named t mem id named) new
            (Finset.mem_insert_self id ids)
        have smaller := Nat.mul_le_mul_right types.card (Nat.succ_le_of_lt fewer)
        rw [Nat.succ_mul] at smaller
        have alone : ∀ v ∈ (∅ : Finset TypeName), TransGen ds.PassesTo v u := by simp
        refine ih mem' alone ?_ ?_
        · rw [Finset.sdiff_empty]
          omega
        · rw [Finset.sdiff_empty]
          omega
      · have plain : ∀ s, ds.declarationOf? t ≠ some (.struct s) := fun s declares =>
          struct ⟨s, declares⟩
        rw [openedIds_other ids id plain]
        have less : (types \ insert t around).card < (types \ around).card :=
          card_sdiff_lt (Finset.subset_insert t around) mem outside
            (Finset.mem_insert_self t around)
        have passed' : ∀ v ∈ insert t around, TransGen ds.PassesTo v u := by
          intro v hv
          rcases Finset.mem_insert.1 hv with rfl | hv
          · exact .single ⟨inner, plain⟩
          · exact (passed v hv).tail ⟨inner, plain⟩
        exact ih mem' passed' (by omega) (by omega)

variable {c : Contract} {levels levels' : Nat}

/-- The annotations of a program and of a contract never take more levels than there is fuel for. -/
lemma enough_levels (ended : ∀ v, ¬ TransGen ds.StandsFor v v) (mem : t ∈ ds.occurrences c)
    (kept : KeepsNames translate) (enough : ds.registrationFuel c ≤ levels)
    (enough' : ds.registrationFuel c ≤ levels') (further further' : TypeName → Registering TypeId)
    (k : KnownTypes) :
    ((level ds)^[levels'] further' t).run k =
      (((level ds)^[levels] further t).run k).mapError translate := by
  have bound := ds.enough_fuel c ∅
  have alone : ∀ v ∈ (∅ : Finset TypeName), TransGen ds.PassesTo v t := by simp
  have all : (ds.occurrences c).toFinset \ ∅ = (ds.occurrences c).toFinset := Finset.sdiff_empty
  have mirrors : Mirrors (Holds ∅) translate ((level ds)^[levels'] further' t)
      ((level ds)^[levels] further t) fun _ => True :=
    levels_mirror ended (ds.occurrences_enclosed c) kept (List.mem_toFinset.2 mem) alone
      (by rw [all]; exact bound.trans enough) (by rw [all]; exact bound.trans enough')
  exact (mirrors k (Finset.empty_subset _)).1

/-- However many levels more than it has fuel for, the registration of an annotation is the same. -/
lemma levels_eq_register (ended : ∀ v, ¬ TransGen ds.StandsFor v v) (mem : t ∈ ds.occurrences c)
    (enough : ds.registrationFuel c ≤ levels) (further : TypeName → Registering TypeId)
    (k : KnownTypes) :
    ((level ds)^[levels] further t).run k = (register ds (ds.registrationFuel c) t).run k := by
  have kept : KeepsNames fun cause => cause := fun _ _ => rfl
  rw [register_eq_levels, enough_levels ended mem kept (Nat.le_refl _) enough _ further]
  cases ((level ds)^[ds.registrationFuel c] _ t).run k <;> rfl

/-- Another name for the error that tells of a registration without an end. -/
def otherwise (other : ResolutionError) : ResolutionError → ResolutionError
  | .endlessType _ => other
  | cause => cause

/-- That a type never ends is not reported, since nothing would change if it had another name. -/
lemma register_not_endless (ended : ∀ v, ¬ TransGen ds.StandsFor v v) (mem : t ∈ ds.occurrences c)
    (k : KnownTypes) (node : NodeId) :
    (register ds (ds.registrationFuel c) t).run k ≠ .error (.endlessType node) := by
  intro failed
  have kept : KeepsNames (otherwise (.notFound node)) := by
    intro cause other
    cases cause with
    | endlessType node => exact absurd rfl (other node)
    | _ => rfl
  have same := enough_levels ended mem kept (Nat.le_refl _) (Nat.le_refl _)
    (fun t => throw (.endlessType t.id)) (fun t => throw (.endlessType t.id)) k
  rw [← register_eq_levels, failed] at same
  cases same

end Registration

/-! ## Extracting without a bound -/

namespace Extraction

open Registering Registration

variable {ds : Declarations} {c : Contract} {decode : String → String} {k : KnownTypes}
  {bound levels : Nat}

section

variable (register : TypeName → Registering TypeId) (size : TypeId → Registering Footprint)

/-- Finds the place of a variable, where `register` and `size` register and size its type. -/
def placeVariableBy (v : Variable) (free : Position) :
    Registering (TypeId × Position × Position) := do
  let type ← register v.type
  let f ← size type
  match free.place f with
  | (some start, next) => return (type, start, next)
  | (none, _) => throw (.oversizedType type)

/-- Lays out a variable, where `register` and `size` register and size its type. -/
def addVariableBy (decode : String → String) (p : Progress) (base : Contract) (v : Variable) :
    Except ExtractionError Progress := do
  let (placed, known) ←
    located (decode v.src) ((placeVariableBy register size v p.free).run p.known)
  return p.after decode base v placed known

/-- Lays out variables one after another, where `register` and `size` register and size types. -/
def addVariablesBy (decode : String → String) (vs : List (Contract × Variable)) (p : Progress) :
    Except ExtractionError Progress :=
  vs.foldlM (fun p (base, v) => addVariableBy register size decode p base v) p

/-- The layout of a contract, where `register` and `size` register and size its types. -/
def layoutBy (ds : Declarations) (decode : String → String) (c : Contract) :
    Except ExtractionError Layout := do
  let bases ← unlocated (ds.lineage c)
  let p ← addVariablesBy register size decode (variablesOf bases) .start
  let (_, known) ← located (decode c.src)
    ((p.known.withoutSize.forM fun id => discard (size id)).run p.known)
  return ⟨p.items, known.types⟩

end

lemma layout_eq_layoutBy (ds : Declarations) (decode : String → String) (c : Contract) :
    layout ds decode c =
      layoutBy (register ds (ds.registrationFuel c)) Sizing.footprint ds decode c := rfl

/-- There are no more size rules than annotations in use. -/
lemma rules_le_annotations (described : Described ds (ds.Uses c) (fun _ => False) k) :
    k.sizeRules.size ≤ ds.annotationCount c := by
  have distinct : k.sizeRules.keys.Nodup := k.sizeRules.sorted.imp String.ne_of_lt
  have used : k.sizeRules.keys ⊆ (ds.occurrences c).filterMap ds.idOf? := by
    intro id mem
    obtain ⟨rule, ruled⟩ := Table.find?_of_mem_keys mem
    obtain ⟨item, entered⟩ := described.entered ruled
    obtain ⟨_, _, t, _, account⟩ := described.accounted entered fun pending => pending
    exact List.mem_filterMap.2 ⟨t, account.used.occurs, account.named⟩
  have few := (List.subperm_of_subset distinct used).length_le
  rw [Table.keys, List.length_map] at few
  rw [← Declarations.length_occurrences]
  exact few.trans (List.length_filterMap_le _ _)

/-- Sizing all that is left ends likewise with any number of levels above that of the rules. -/
lemma levels_eq_sizeAll (further : List TypeId → TypeId → Registering Footprint)
    (enough : k.sizeRules.size < levels) (ids : List TypeId) :
    (ids.forM fun id => discard (Sizing.level^[levels] further [] id)).run k =
      (Sizing.sizeAll ids).run k := by
  induction ids generalizing k with
  | nil => rfl
  | cons id ids ih =>
    change (do discard (Sizing.level^[levels] further [] id)
               ids.forM fun id => discard (Sizing.level^[levels] further [] id)).run k =
      (do discard (Sizing.footprint id); Sizing.sizeAll ids).run k
    rw [run_bind, run_bind]
    have first : (discard (Sizing.level^[levels] further [] id)).run k =
        (discard (Sizing.footprint id)).run k := by
      change (do let r ← (Sizing.level^[levels] further [] id).run k; pure ((), r.2)) =
        (do let r ← (Sizing.footprint id).run k; pure ((), r.2))
      rw [Sizing.levels_eq_footprint further enough id]
    rw [first]
    cases ran : (discard (Sizing.footprint id)).run k with
    | error cause => rfl
    | ok result =>
      have keeps : Leads (discard (Sizing.footprint id)) k
          (fun _ after => after.sizeRules = k.sizeRules) (Sizing.NamesCycle k.sizeRules) :=
        (leads_discard _).2 (Sizing.footprint_cycle id k)
      have same := leads_of_ok keeps ran
      exact ih (same ▸ enough)

section

variable (further : TypeName → Registering TypeId)
  (further' : List TypeId → TypeId → Registering Footprint) {levels' : Nat}
  (ended : ∀ v, ¬ TransGen ds.StandsFor v v) (enough : ds.registrationFuel c ≤ levels)
  (enough' : ds.annotationCount c < levels')

include ended enough enough'

/-- A variable in use is placed likewise with more levels than there is fuel for. -/
lemma levels_eq_placeVariable {v : Variable} (used : ds.Uses c v.type) (free : Position)
    (settled : Settled ds c k) :
    (placeVariableBy ((level ds)^[levels] further) (Sizing.level^[levels'] further' [])
      v free).run k = (placeVariable ds (ds.registrationFuel c) v free).run k := by
  have same := levels_eq_register ended used.occurs enough further k
  rw [placeVariableBy, placeVariable]
  cases ran : (register ds (ds.registrationFuel c) v.type).run k with
  | error cause =>
    rw [run_bind, run_bind, same, ran]
    rfl
  | ok result =>
    obtain ⟨type, between⟩ := result
    have left := leads_of_ok
      (register_leaves Declarations.uses_closed _ used settled.described) ran
    have few := (rules_le_annotations left.described).trans_lt enough'
    rw [run_bind_of_ok (same.trans ran), run_bind_of_ok ran, run_bind, run_bind]
    exact congrArg (· >>= _) (Sizing.levels_eq_footprint further' few type)

lemma levels_eq_addVariables {vs : List (Contract × Variable)}
    (used : ∀ v ∈ vs, ds.Uses c v.2.type) {p : Progress} (settled : Settled ds c p.known) :
    addVariablesBy ((level ds)^[levels] further) (Sizing.level^[levels'] further' []) decode vs p =
      addVariables ds decode (ds.registrationFuel c) vs p := by
  induction vs generalizing p with
  | nil => rfl
  | cons first vs ih =>
    obtain ⟨base, v⟩ := first
    have here := used _ List.mem_cons_self
    have placing := levels_eq_placeVariable further further' ended enough enough' here p.free
      settled
    change (addVariableBy ((level ds)^[levels] further) (Sizing.level^[levels'] further' []) decode
      p base v >>= addVariablesBy _ _ decode vs) = _
    rw [addVariableBy, placing]
    rcases addVariable_eq ds decode (ds.registrationFuel c) p base v with
      ⟨placed, known, ran, added⟩ | ⟨cause, ran, added⟩
    · rw [ran, addVariables_cons_ok added]
      obtain ⟨after, _⟩ := leads_of_ok (placeVariable_settled here _ p.free settled) ran
      exact ih (fun w hw => used w (List.mem_cons_of_mem _ hw)) after
    · rw [ran, addVariables_cons_error added]
      rfl

/-- The extraction of a layout is the same however many levels more than it needs it has. -/
lemma levels_eq_layout (decode : String → String) :
    layoutBy ((level ds)^[levels] further) (Sizing.level^[levels'] further' []) ds decode c =
      layout ds decode c := by
  rw [layout_eq_layoutBy, layoutBy, layoutBy]
  cases lineage : ds.lineage c with
  | error cause => rfl
  | ok bases =>
    have used := Declarations.uses_variable lineage
    have start : Settled ds c Progress.start.known := ⟨.empty, .empty⟩
    simp only [unlocated, ok_bind]
    rw [levels_eq_addVariables further further' ended enough enough' used start]
    change _ = addVariables ds decode (ds.registrationFuel c) (variablesOf bases) .start >>= _
    cases placed : addVariables ds decode (ds.registrationFuel c) (variablesOf bases) .start with
    | error e => rfl
    | ok p =>
      obtain ⟨settled, _⟩ := addVariables_settled used start placed
      have few := (rules_le_annotations settled.described).trans_lt enough'
      simp only [ok_bind]
      rw [levels_eq_sizeAll further' few]
      rfl

end

/-- Neither registering a variable in use nor sizing it reports that a type never ends. -/
lemma placeVariable_not_endless (ended : ∀ v, ¬ TransGen ds.StandsFor v v) {v : Variable}
    (used : ds.Uses c v.type) (free : Position) (settled : Settled ds c k) :
    Leads (placeVariable ds (ds.registrationFuel c) v free) k (fun _ _ => True)
      (fun cause => ∀ node, cause ≠ .endlessType node) := by
  rw [placeVariable, leads_bind]
  have left := register_leaves Declarations.uses_closed (ds.registrationFuel c) used
    settled.described
  cases ran : (register ds (ds.registrationFuel c) v.type).run k with
  | error cause =>
    rw [Leads, ran]
    rintro node rfl
    exact register_not_endless ended used.occurs k node ran
  | ok result =>
    have after := leads_of_ok left ran
    have sized := settled.sized.keeps settled.described after.keeps
    rw [Leads, ran]
    simp only [leads_bind]
    refine (Sizing.footprint_finds result.1 sized).mono (fun f last _ => ?_) ?_
    · cases free.place f with
      | mk start next =>
        cases start with
        | none =>
          intro node oversized
          cases oversized
        | some start => trivial
    · rintro cause size node rfl
      cases size

lemma addVariables_not_endless (ended : ∀ v, ¬ TransGen ds.StandsFor v v)
    {vs : List (Contract × Variable)} (used : ∀ v ∈ vs, ds.Uses c v.2.type) {p : Progress}
    (settled : Settled ds c p.known) (location : Option String) (node : NodeId) :
    addVariables ds decode (ds.registrationFuel c) vs p ≠
      .error ⟨location, .endlessType node⟩ := by
  induction vs generalizing p with
  | nil => nofun
  | cons first vs ih =>
    obtain ⟨base, v⟩ := first
    have here := used _ List.mem_cons_self
    rcases addVariable_eq ds decode (ds.registrationFuel c) p base v with
      ⟨placed, known, ran, added⟩ | ⟨cause, ran, added⟩
    · rw [addVariables_cons_ok added]
      obtain ⟨after, _⟩ := leads_of_ok (placeVariable_settled here _ p.free settled) ran
      exact ih (fun w hw => used w (List.mem_cons_of_mem _ hw)) after
    · rw [addVariables_cons_error added]
      have other := leads_of_error (placeVariable_not_endless ended here p.free settled) ran
      intro same
      cases same
      exact other node rfl

lemma layout_not_endless (ended : ∀ v, ¬ TransGen ds.StandsFor v v) (location : Option String)
    (node : NodeId) : layout ds decode c ≠ .error ⟨location, .endlessType node⟩ := by
  intro failed
  rw [layout_eq] at failed
  cases lineage : ds.lineage c with
  | error cause =>
    rw [lineage] at failed
    cases failed
    cases Declarations.lineage_error lineage
  | ok bases =>
    simp only [lineage] at failed
    have used := Declarations.uses_variable lineage
    have start : Settled ds c Progress.start.known := ⟨.empty, .empty⟩
    cases placed : addVariables ds decode (ds.registrationFuel c) (variablesOf bases) .start with
    | error e =>
      rw [placed] at failed
      cases failed
      exact addVariables_not_endless ended used start location node placed
    | ok p =>
      obtain ⟨settled, _⟩ := addVariables_settled used start placed
      have size := Sizing.sizeAll_finds p.known.withoutSize settled.sized
      simp only [placed] at failed
      cases sizing : (Sizing.sizeAll p.known.withoutSize).run p.known with
      | error cause =>
        rw [sizing] at failed
        cases failed
        cases leads_of_error size sizing
      | ok result =>
        rw [sizing] at failed
        cases failed

end Extraction

/--
Where no value type leads back to itself before a struct is met, registering any annotation of a
program or of a contract comes to its end, whatever types have been met: what would be done
further in than there is fuel for does not matter, and that a type never ends is not reported.
So does the extraction of the contract's layout, with the sizing of its types.
-/
theorem registration_terminates {ds : Declarations} (ended : ∀ v, ¬ TransGen ds.StandsFor v v)
    (c : Contract) :
    (∀ t ∈ ds.occurrences c, ∀ k,
      (∀ (further : TypeName → Registering TypeId) (levels : Nat), ds.registrationFuel c ≤ levels →
        ((Registration.level ds)^[levels] further t).run k =
          (Registration.register ds (ds.registrationFuel c) t).run k) ∧
      ∀ node, (Registration.register ds (ds.registrationFuel c) t).run k ≠
        .error (.endlessType node)) ∧
    ∀ decode : String → String,
      (∀ (further : TypeName → Registering TypeId)
        (further' : List TypeId → TypeId → Registering Footprint) (levels levels' : Nat),
        ds.registrationFuel c ≤ levels → ds.annotationCount c < levels' →
          Extraction.layoutBy ((Registration.level ds)^[levels] further)
            (Sizing.level^[levels'] further' []) ds decode c = Extraction.layout ds decode c) ∧
      ∀ location node, Extraction.layout ds decode c ≠ .error ⟨location, .endlessType node⟩ := by
  refine ⟨fun t mem k => ⟨fun further levels enough => ?_, ?_⟩, fun decode => ⟨?_, ?_⟩⟩
  · exact Registration.levels_eq_register ended mem enough further k
  · exact Registration.register_not_endless ended mem k
  · intro further further' levels levels' enough enough'
    exact Extraction.levels_eq_layout further further' ended enough enough' decode
  · exact Extraction.layout_not_endless ended

/-! ### Structs that refer to one another -/

/-- Value types that stand for others with lower ids do not lead back to themselves. -/
lemma Declarations.ended_of_lower {ds : Declarations}
    (lower : ∀ v w, .valueType v ∈ ds.all → ds.StandsFor v w → w.id < v.id) :
    ∀ v, ¬ TransGen ds.StandsFor v v := by
  have declared {v w : ValueTypeDefinition} (h : ds.StandsFor v w) : .valueType w ∈ ds.all := by
    obtain ⟨s, _, declares⟩ := h
    exact declarationOf?_mem declares
  have falls {v w : ValueTypeDefinition} (path : TransGen ds.StandsFor v w) :
      .valueType v ∈ ds.all → w.id < v.id := by
    induction path using TransGen.head_induction_on with
    | single step => exact fun here => lower _ _ here step
    | head step _ ih => exact fun here => (ih (declared step)).trans (lower _ _ here step)
  intro v cycle
  obtain ⟨_, _, last⟩ := TransGen.tail'_iff.1 cycle
  exact Int.lt_irrefl v.id (falls cycle (declared last))

def graphMark : ValueTypeDefinition := ⟨3, "Mark", some "Mark", elementaryType 10 "uint64", ""⟩

def graphMarkType : TypeName := .declared 11 3 (some "Mark")
  ⟨some "t_userDefinedValueType$_Mark_$3", some "Mark"⟩

/-- A value type over another one. -/
def graphTag : ValueTypeDefinition := ⟨4, "Tag", some "Tag", graphMarkType, ""⟩

def graphTagType (id : NodeId) : TypeName := .declared id 4 (some "Tag")
  ⟨some "t_userDefinedValueType$_Tag_$4", some "Tag"⟩

def graphNodeType (id : NodeId) : TypeName := .declared id 1 (some "Node")
  ⟨some "t_struct$_Node_$1_storage", some "struct Node"⟩

def graphEdgeType : TypeName := .declared 12 2 (some "Edge")
  ⟨some "t_struct$_Edge_$2_storage", some "struct Edge"⟩

/-- A node has edges to nodes, found by their tags. -/
def graphNode : StructDefinition :=
  ⟨1, "Node", some "Node", [plainVariable 20 "tag" (graphTagType 21),
    plainVariable 22 "edges" (.mapping 23 (graphTagType 24) graphEdgeType
      ⟨some "t_mapping$_t_userDefinedValueType$_Tag_$4_$_t_struct$_Edge_$2_storage_$",
        some "mapping(Tag => struct Edge)"⟩)], ""⟩

def graphEdge : StructDefinition :=
  ⟨2, "Edge", some "Edge", [plainVariable 30 "ends" (.array 31 (graphNodeType 32)
    ⟨some "t_array$_t_struct$_Node_$1_storage_$dyn_storage", some "struct Node[]"⟩)], ""⟩

def graphContract : Contract :=
  ⟨5, "Graph", [5], [.variable (plainVariable 40 "root" (graphNodeType 41))], ""⟩

def graphProgram : Declarations :=
  ⟨[.struct graphNode, .struct graphEdge, .valueType graphMark, .valueType graphTag,
    .contract graphContract]⟩

lemma graphProgram_ended : ∀ v, ¬ TransGen graphProgram.StandsFor v v := by
  apply Declarations.ended_of_lower
  rintro v w declared ⟨s, mem, declares⟩
  have known : v = graphMark ∨ v = graphTag := by simpa [graphProgram] using declared
  rcases known with rfl | rfl
  · obtain rfl := List.mem_singleton.1 mem
    cases declares
  · obtain rfl := List.mem_singleton.1 mem
    have mark : graphProgram.declarationOf? graphMarkType = some (.valueType graphMark) := rfl
    cases mark.symm.trans declares
    decide

theorem graph_registration_terminates :
    (∀ v, ¬ TransGen graphProgram.StandsFor v v) ∧
    graphNodeType 41 ∈ graphProgram.occurrences graphContract ∧
    (∀ k node, (Registration.register graphProgram
      (graphProgram.registrationFuel graphContract) (graphNodeType 41)).run k ≠
        .error (.endlessType node)) ∧
    ∀ further further', Extraction.layoutBy ((Registration.level graphProgram)^[121] further)
      (Sizing.level^[11] further' []) graphProgram id graphContract =
        Extraction.layout graphProgram id graphContract := by
  have mem : graphNodeType 41 ∈ graphProgram.occurrences graphContract :=
    Declarations.mem_occurrences (d := .contract graphContract) (.inl rfl) List.mem_cons_self
  obtain ⟨registers, extracts⟩ := registration_terminates graphProgram_ended graphContract
  refine ⟨graphProgram_ended, mem, fun k => (registers _ mem k).2, fun further further' => ?_⟩
  exact (extracts id).1 further further' 121 11 (by decide) (by decide)

end UpgradeSafety
