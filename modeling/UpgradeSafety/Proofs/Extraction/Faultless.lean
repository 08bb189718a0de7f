import UpgradeSafety.Proofs.Extraction.Apart
import UpgradeSafety.Proofs.Extraction.Mirrored
import UpgradeSafety.Proofs.Packing.Machine

/-!
# Extraction meets no arithmetic fault

The extraction as a machine runs it: every footprint that is computed is looked at, and every
step of the arithmetic is watched. It ends as the extraction itself does. All footprints are
whole slots or a part of one, no division, difference or unchecked sum goes wrong, and where a
checked number does not fit in a word, the type is refused as too large. Nothing else is
refused for that reason.
-/

namespace UpgradeSafety

open Extraction (Progress variablesOf)

/-- Why an extraction on a machine ends without a layout. -/
inductive Failure where
  | fault (what : Fault)
  /-- A checked number, of slots or of bytes, does not fit in a word at this type. -/
  | overflow (id : TypeId)
  | refused (cause : ResolutionError)
  deriving DecidableEq, Repr

/-- What an error says of the arithmetic: a type that is too large is one that overflows. -/
def Failure.of : ResolutionError → Failure
  | .oversizedType id => .overflow id
  | cause => .refused cause

namespace Machine

/-! ## Steps of an extraction on a machine -/

/-- A step of an extraction on a machine. -/
abbrev Running (α : Type) := StateT KnownTypes (Except Failure) α

section Steps

variable {α : Type}

/-- Arithmetic whose faults end the extraction. -/
def watch (x : Except Fault α) : Running α := liftM (x.mapError Failure.fault)

/-- A step without arithmetic. -/
def plain (m : Registering α) : Running α := fun k => (m.run k).mapError Failure.refused

/-- A result with the location where it failed. -/
def located (location : Option String) (x : Except Failure α) :
    Except (Option String × Failure) α := x.mapError fun failure => (location, failure)

end Steps

def knownRule (f : Footprint) : Running SizeRule := return .known (← watch (shaped f))

def describe (inside : TypeName → Running TypeId) (id : TypeId) (label : String) :
    TypeName → Option Declaration → Running (TypeKind × SizeRule)
  | .elementary .., _ | .function .., _ => do
    let f ← plain (Registration.elementaryFootprint id)
    return (.value, ← knownRule f)
  | .mapping _ key value _, _ => do
    let key ← inside key
    let value ← inside value
    return (.mapping key value, ← knownRule .word)
  | .array _ element _, _ => do
    let element ← inside element
    match id.arrayLength? with
    | none => throw (.refused (.unsupportedType id))
    | some .dynamic => return (.array element .dynamic, ← knownRule .word)
    | some (.fixed n) => return (.array element (.fixed n), .fixedArray element n)
  | .declared .., some (.contract _) => return (.contract, ← knownRule .contract)
  | .declared .., some (.enum e) => do
    let bytes ← watch (enumBytes e.members.length)
    return (.enum (some e.members), ← knownRule (.packed bytes))
  | .declared .., some (.valueType t) => return (.value, .sameAs (← inside t.underlying))
  | .declared .., some (.struct s) => do
    modify fun known => known.putType id label (.struct none)
    let members ← s.members.mapM fun (m : Variable) =>
      return StructMember.mk m.name (← inside m.type)
    return (.struct (some members), .struct (members.map StructMember.type))
  | .declared .., none => throw (.refused (.unsupportedType id))

def register (ds : Declarations) : Nat → TypeName → Running TypeId
  | 0, type => throw (.refused (.endlessType type.id))
  | fuel + 1, type => do
    match type.description.identifier with
    | none => throw (.refused (.missingTypeIdentifier type.id))
    | some raw =>
      let id := ds.canonicalId raw
      let declaration ← plain (Registration.declarationOf? ds id type)
      if (← get).types.contains id then return id
      let label := type.description.text.getD id
      let (kind, rule) ← describe (register ds fuel) id label type declaration
      modify fun known => (known.putType id label kind).putSizeRule id rule
      return id

def sized (id : TypeId) : Option Footprint → Running Footprint
  | some f => return f
  | none => throw (.overflow id)

def follow (of : TypeId → Running Footprint) (id : TypeId) : SizeRule → Running Footprint
  | .known f => return f
  | .sameAs other => of other
  | .fixedArray element length => do sized id (← watch (fixedArray? (← of element) length))
  | .struct members => do sized id (← watch (struct? (← members.mapM of)))

def footprintInside : Nat → List TypeId → TypeId → Running Footprint
  | fuel, enclosing, id => do
    match (← get).footprints.find? id with
    | some f => return f
    | none =>
      if id ∈ enclosing then throw (.refused (.selfContainingType id))
      else
        match (← get).sizeRules.find? id with
        | none => throw (.refused (.unsupportedType id))
        | some rule =>
          match fuel with
          | 0 => throw (.refused (.selfContainingType id))
          | fuel + 1 =>
            let computed ← follow (footprintInside fuel (id :: enclosing)) id rule
            let f ← watch (shaped computed)
            modify fun known => known.putFootprint id f
            return f

def footprint (id : TypeId) : Running Footprint := do
  footprintInside ((← get).sizeRules.size + 1) [] id

def sizeAll (ids : List TypeId) : Running Unit := ids.forM fun id => discard (footprint id)

def placeVariable (ds : Declarations) (fuel : Nat) (v : Variable) (free : Position) :
    Running (TypeId × Position × Position) := do
  let type ← register ds fuel v.type
  let f ← footprint type
  match ← watch (place free f) with
  | (some start, next) => return (type, start, next)
  | (none, _) => throw (.overflow type)

def addVariable (ds : Declarations) (decode : String → String) (fuel : Nat) (p : Progress)
    (base : Contract) (v : Variable) : Except (Option String × Failure) Progress := do
  let (placed, known) ← located (decode v.src) ((placeVariable ds fuel v p.free).run p.known)
  return p.after decode base v placed known

/-- The layout of a contract, from a machine whose arithmetic is watched. -/
def layout (ds : Declarations) (decode : String → String) (c : Contract) :
    Except (Option String × Failure) Layout := do
  let bases ← located none ((ds.lineage c).mapError Failure.refused)
  let p ← (variablesOf bases).foldlM
    (fun p (base, v) => addVariable ds decode (ds.registrationFuel c) p base v) Progress.start
  let (_, known) ← located (decode c.src) ((sizeAll p.known.withoutSize).run p.known)
  return ⟨p.items, known.types⟩

/-! ## A machine that does not fault -/

/-- The footprint or the length in a size rule is one that types can have. -/
def InBounds : SizeRule → Prop
  | .known f => f.Admissible
  | .fixedArray _ length => length < Numeral.bound256
  | _ => True

/-- What is known of sizes is what types can have. -/
structure Shaped (k : KnownTypes) : Prop where
  rules : ∀ {id rule}, k.sizeRules.find? id = some rule → InBounds rule
  footprints : ∀ {id f}, k.footprints.find? id = some f → f.Admissible

namespace Shaped

variable {k : KnownTypes}

lemma empty : Shaped .empty := ⟨nofun, nofun⟩

lemma enter (h : Shaped k) (id : TypeId) (label : String) (kind : TypeKind) {rule : SizeRule}
    (bounds : InBounds rule) : Shaped ((k.putType id label kind).putSizeRule id rule) where
  rules {x r} found := by
    by_cases same : x = id
    · subst same
      cases (Table.find?_insert_self k.sizeRules x rule).symm.trans found
      exact bounds
    · exact h.rules ((Table.find?_insert_of_ne k.sizeRules same rule).symm.trans found)
  footprints := h.footprints

lemma putFootprint (h : Shaped k) (id : TypeId) {f : Footprint} (shape : f.Admissible) :
    Shaped (k.putFootprint id f) where
  rules := h.rules
  footprints {x g} found := by
    by_cases same : x = id
    · subst same
      cases (Table.find?_insert_self k.footprints x f).symm.trans found
      exact shape
    · exact h.footprints ((Table.find?_insert_of_ne k.footprints same f).symm.trans found)

end Shaped

section Mirrors

open Registering

variable {α β : Type}

/--
Where the sizes that are known are those that types can have, a step on a machine ends as the
step itself, and then this is still so of the sizes that are known.
-/
abbrev Mirrors (m' : Running α) (m : Registering α) (post : α → Prop) : Prop :=
  Registering.Mirrors Shaped Failure.of m' m post

variable {m : Registering α} {post : α → Prop}

/-- Arithmetic without a fault is left out of the step that is mirrored. -/
lemma mirrors_watch {x : Except Fault β} {b : β} {next : β → Running α} (sound : x = .ok b)
    (rest : Mirrors (next b) m post) : Mirrors (watch x >>= next) m post := by
  rw [sound]
  exact rest

/-- A step without arithmetic neither learns a size nor finds a type too large. -/
lemma mirrors_plain
    (ends : ∀ k, Shaped k → Leads m k (fun a after => post a ∧ Shaped after)
      (fun cause => Failure.of cause = .refused cause)) : Mirrors (plain m) m post := by
  intro k shaped
  have h := ends k shaped
  change (m.run k).mapError Failure.refused = _ ∧ _
  cases ran : m.run k with
  | error cause =>
    refine ⟨congrArg Except.error (leads_of_error h ran).symm, ?_⟩
    rw [Leads, ran]
    trivial
  | ok result =>
    refine ⟨rfl, ?_⟩
    rw [Leads, ran]
    exact leads_of_ok h ran

end Mirrors

/-! ### Registration -/

section Registration

open Registering

variable {ds : Declarations} {id : TypeId} {t : TypeName}

lemma knownRule_mirrors {α : Type} {next' : SizeRule → Running α} {m : Registering α}
    {last : α → Prop} {f : Footprint} (shape : f.Admissible)
    (rest : Mirrors (next' (.known f)) m last) : Mirrors (knownRule f >>= next') m last := by
  rw [knownRule, shaped_eq shape]
  exact rest

lemma elementaryFootprint_mirrors (id : TypeId) :
    Mirrors (plain (Registration.elementaryFootprint id)) (Registration.elementaryFootprint id)
      Footprint.Admissible := by
  refine mirrors_plain fun k shaped => ?_
  refine Registration.leads_elementaryFootprint (fun f size => ?_) rfl
  exact ⟨(Footprint.ofElementary?_admissible size).1, shaped⟩

lemma declarationOf?_mirrors (ds : Declarations) (id : TypeId) (t : TypeName) :
    Mirrors (plain (Registration.declarationOf? ds id t)) (Registration.declarationOf? ds id t)
      fun d => d = ds.declarationOf? t := by
  refine mirrors_plain fun k shaped => ?_
  refine Registration.leads_declarationOf? (fun _ => ⟨rfl, shaped⟩) (fun _ => rfl)
    (fun _ _ _ => ⟨rfl, shaped.rules, shaped.footprints⟩) (fun _ _ _ => ⟨rfl, shaped⟩)
    (fun _ _ _ _ _ => rfl)

lemma arrayLength?_lt {length : Nat} (h : id.arrayLength? = some (.fixed length)) :
    length < Numeral.bound256 := by
  rw [TypeId.arrayLength?] at h
  simp only [Option.ite_none_right_eq_some, Option.bind_eq_some_iff] at h
  obtain ⟨_, rest, _, h⟩ := h
  split at h
  · cases h
  · obtain ⟨n, digits, same⟩ := Option.map_eq_some_iff.1 h
    cases same
    exact Numeral.ofDigits?_lt digits

lemma describe_mirrors (counted : ds.EnumsCounted) {inside' : TypeName → Running TypeId}
    {inside : TypeName → Registering TypeId}
    (each : ∀ u, Mirrors (inside' u) (inside u) fun _ => True) (id : TypeId) (label : String)
    (t : TypeName) :
    Mirrors (describe inside' id label t (ds.declarationOf? t))
      (Registration.describe inside id label t (ds.declarationOf? t)) fun r => InBounds r.2 := by
  cases t with
  | elementary i name desc =>
    exact mirrors_bind (elementaryFootprint_mirrors id) fun f shape =>
      knownRule_mirrors shape (mirrors_pure shape)
  | function i desc =>
    exact mirrors_bind (elementaryFootprint_mirrors id) fun f shape =>
      knownRule_mirrors shape (mirrors_pure shape)
  | mapping i key value desc =>
    have shape := Footprint.admissible_word
    exact mirrors_bind (each key) fun _ _ => mirrors_bind (each value) fun _ _ =>
      knownRule_mirrors shape (mirrors_pure shape)
  | array i element desc =>
    refine mirrors_bind (each element) fun element _ => ?_
    cases length : id.arrayLength? with
    | none => exact mirrors_throw (.unsupportedType id) rfl
    | some length' =>
      cases length' with
      | dynamic =>
        have shape := Footprint.admissible_word
        exact knownRule_mirrors shape (mirrors_pure shape)
      | fixed n => exact mirrors_pure (arrayLength?_lt length)
  | declared i node name desc =>
    cases declares : ds.declarationOf? (.declared i node name desc) with
    | none => exact mirrors_throw (.unsupportedType id) rfl
    | some d =>
      cases d with
      | contract c =>
        have shape := Footprint.admissible_contract
        exact knownRule_mirrors shape (mirrors_pure shape)
      | enum e =>
        have few := counted e (Declarations.declarationOf?_mem declares)
        have shape := Footprint.admissible_enum few
        exact mirrors_watch (enumBytes_eq few) (knownRule_mirrors shape (mirrors_pure shape))
      | valueType v => exact mirrors_bind (each v.underlying) fun _ _ => mirrors_pure trivial
      | struct s =>
        have opens : ∀ k, Shaped k → Shaped (k.putType id label (.struct none)) :=
          fun _ shaped => ⟨shaped.rules, shaped.footprints⟩
        have member : ∀ m ∈ s.members,
            Mirrors (do return StructMember.mk m.name (← inside' m.type))
              (do return StructMember.mk m.name (← inside m.type)) fun _ => True :=
          fun m _ => mirrors_bind (each m.type) fun _ _ => mirrors_pure trivial
        exact mirrors_bind (mirrors_modify opens) fun _ _ =>
          mirrors_bind (mirrors_mapM s.members member) fun _ _ => mirrors_pure trivial

lemma register_mirrors (counted : ds.EnumsCounted) (fuel : Nat) (t : TypeName) :
    Mirrors (register ds fuel t) (Registration.register ds fuel t) fun _ => True := by
  induction fuel generalizing t with
  | zero => exact mirrors_throw (.endlessType t.id) rfl
  | succ fuel ih =>
    rw [register, Registration.register]
    cases t.description.identifier with
    | none => exact mirrors_throw (.missingTypeIdentifier t.id) rfl
    | some raw =>
      refine mirrors_bind (declarationOf?_mirrors ds (ds.canonicalId raw) t) ?_
      rintro _ rfl
      refine mirrors_bind mirrors_get fun k _ => ?_
      cases k.types.contains (ds.canonicalId raw) with
      | true => exact mirrors_pure trivial
      | false =>
        refine mirrors_bind (describe_mirrors counted ih _ _ t) fun r bounds => ?_
        exact mirrors_bind (mirrors_modify fun k shaped => shaped.enter _ _ r.1 bounds)
          fun _ _ => mirrors_pure trivial

end Registration

/-! ### Sizing -/

section Sizing

open Registering

lemma sized_mirrors (id : TypeId) {size : Option Footprint}
    (shape : ∀ f, size = some f → f.Admissible) :
    Mirrors (sized id size) (Sizing.sized id size) Footprint.Admissible := by
  cases size with
  | none => exact mirrors_throw (.oversizedType id) rfl
  | some f => exact mirrors_pure (shape f rfl)

/-- A size rule within bounds is followed, given how the footprints of other types are found. -/
lemma follow_mirrors {of' : TypeId → Running Footprint} {of : TypeId → Registering Footprint}
    (each : ∀ other, Mirrors (of' other) (of other) Footprint.Admissible) (id : TypeId)
    {rule : SizeRule} (bounds : InBounds rule) :
    Mirrors (follow of' id rule) (Sizing.follow of id rule) Footprint.Admissible := by
  cases rule with
  | known f => exact mirrors_pure bounds
  | sameAs other => exact each other
  | fixedArray element length =>
    refine mirrors_bind (each element) fun g shape => ?_
    refine mirrors_watch (fixedArray?_eq shape bounds) (sized_mirrors id fun f size => ?_)
    exact (Footprint.admissible_fixedArray size).1
  | struct members =>
    refine mirrors_bind (mirrors_mapM members fun other _ => each other) fun gs shapes => ?_
    refine mirrors_watch (struct?_eq shapes) (sized_mirrors id fun f size => ?_)
    exact (Footprint.admissible_struct size).1

lemma footprintInside_mirrors (fuel : Nat) (enclosing : List TypeId) (id : TypeId) :
    Mirrors (footprintInside fuel enclosing id) (Sizing.footprintInside fuel enclosing id)
      Footprint.Admissible := by
  induction fuel generalizing enclosing id with
  | zero =>
    rw [footprintInside, Sizing.footprintInside]
    exact Sizing.withRule_mirrors rfl rfl (fun _ shaped _ size => shaped.footprints size)
      fun _ _ _ _ _ => mirrors_throw (.selfContainingType id) rfl
  | succ fuel ih =>
    rw [footprintInside, Sizing.footprintInside]
    refine Sizing.withRule_mirrors rfl rfl (fun _ shaped _ size => shaped.footprints size)
      fun _ _ shaped rule ruled => ?_
    have bounds := shaped.rules ruled
    refine mirrors_bind (follow_mirrors (ih (id :: enclosing)) id bounds) fun f shape => ?_
    refine mirrors_watch (shaped_eq shape) ?_
    exact mirrors_bind (mirrors_modify fun k shaped => shaped.putFootprint id shape)
      fun _ _ => mirrors_pure shape

lemma footprint_mirrors (id : TypeId) :
    Mirrors (footprint id) (Sizing.footprint id) Footprint.Admissible :=
  mirrors_bind mirrors_get fun k _ => footprintInside_mirrors (k.sizeRules.size + 1) [] id

lemma sizeAll_mirrors (ids : List TypeId) :
    Mirrors (sizeAll ids) (Sizing.sizeAll ids) fun _ => True := by
  induction ids with
  | nil => exact mirrors_pure trivial
  | cons id ids ih =>
    have step : Sizing.sizeAll (id :: ids) =
        (do discard (Sizing.footprint id); Sizing.sizeAll ids) := rfl
    have step' : sizeAll (id :: ids) = (do discard (footprint id); sizeAll ids) := rfl
    rw [step, step']
    exact mirrors_bind (mirrors_discard (footprint_mirrors id)) fun _ _ => ih

end Sizing

/-! ### Layouts -/

section Layouts

open Registering

variable {ds : Declarations} {decode : String → String} {c : Contract}

/-- A place is found, and the next first free position is inside a slot or right behind it. -/
lemma placeVariable_mirrors (counted : ds.EnumsCounted) (fuel : Nat) (v : Variable)
    {free : Position} (inside : free.offset ≤ slotBytes) :
    Mirrors (placeVariable ds fuel v free) (Extraction.placeVariable ds fuel v free)
      fun placed => placed.2.2.offset ≤ slotBytes := by
  refine mirrors_bind (register_mirrors counted fuel v.type) fun type _ => ?_
  refine mirrors_bind (footprint_mirrors type) fun f shape => ?_
  refine mirrors_watch (place_eq inside shape) ?_
  rcases placed : free.place f with ⟨start | start, next⟩
  · exact mirrors_throw (.oversizedType type) rfl
  · exact mirrors_pure (Position.places inside shape placed).inside

/-- What an error comes to on a machine, with the location where it is met. -/
def failed (e : ExtractionError) : Option String × Failure := (e.location, Failure.of e.cause)

/-- The first free position is in a slot or right behind it, and sizes are as types have them. -/
structure Sound (p : Progress) : Prop where
  shaped : Shaped p.known
  inside : p.free.offset ≤ slotBytes

lemma Sound.start : Sound .start := ⟨.empty, Nat.zero_le _⟩

lemma addVariable_eq (counted : ds.EnumsCounted) {fuel : Nat} {p : Progress} (sound : Sound p)
    (base : Contract) (v : Variable) :
    addVariable ds decode fuel p base v =
        (Extraction.addVariable ds decode fuel p base v).mapError failed ∧
      ∀ p', Extraction.addVariable ds decode fuel p base v = .ok p' → Sound p' := by
  obtain ⟨same, ends⟩ := placeVariable_mirrors counted fuel v sound.inside p.known sound.shaped
  rw [addVariable, same]
  rcases Extraction.addVariable_eq ds decode fuel p base v with
    ⟨placed, known, ran, added⟩ | ⟨cause, ran, added⟩
  · obtain ⟨inside, shaped⟩ := leads_of_ok ends ran
    rw [ran, added]
    refine ⟨rfl, fun p' last => ?_⟩
    cases last
    exact ⟨shaped, inside⟩
  · rw [ran, added]
    exact ⟨rfl, nofun⟩

/-- Lays out variables one after another. -/
def addVariables (ds : Declarations) (decode : String → String) (fuel : Nat)
    (vs : List (Contract × Variable)) (p : Progress) : Except (Option String × Failure) Progress :=
  vs.foldlM (fun p (base, v) => addVariable ds decode fuel p base v) p

lemma addVariables_eq (counted : ds.EnumsCounted) {fuel : Nat} {vs : List (Contract × Variable)}
    {p : Progress} (sound : Sound p) :
    addVariables ds decode fuel vs p =
        (Extraction.addVariables ds decode fuel vs p).mapError failed ∧
      ∀ p', Extraction.addVariables ds decode fuel vs p = .ok p' → Sound p' := by
  induction vs generalizing p with
  | nil =>
    refine ⟨rfl, fun p' ran => ?_⟩
    cases ran
    exact sound
  | cons first vs ih =>
    obtain ⟨base, v⟩ := first
    obtain ⟨same, ends⟩ := addVariable_eq counted sound base v
    have step : addVariables ds decode fuel ((base, v) :: vs) p =
        addVariable ds decode fuel p base v >>= addVariables ds decode fuel vs := rfl
    rw [step, same]
    cases added : Extraction.addVariable ds decode fuel p base v with
    | error e =>
      rw [Extraction.addVariables_cons_error added]
      exact ⟨rfl, nofun⟩
    | ok next =>
      rw [Extraction.addVariables_cons_ok added]
      exact ih (ends next added)

lemma of_concernsNode {cause : ResolutionError} (h : cause.concernsNode = true) :
    Failure.of cause = .refused cause := by
  cases cause <;> first | rfl | cases h

lemma of_ne_fault (cause : ResolutionError) (what : Fault) : Failure.of cause ≠ .fault what := by
  cases cause <;> nofun

lemma of_eq_overflow_iff {cause : ResolutionError} {id : TypeId} :
    Failure.of cause = .overflow id ↔ cause = .oversizedType id := by
  cases cause <;> simp [Failure.of]

lemma layout_eq (ds : Declarations) (decode : String → String) (c : Contract)
    (counted : ds.EnumsCounted) :
    layout ds decode c = (Extraction.layout ds decode c).mapError failed := by
  have parts : layout ds decode c = (do
      let bases ← located none ((ds.lineage c).mapError Failure.refused)
      let p ← addVariables ds decode (ds.registrationFuel c) (variablesOf bases) .start
      let sized ← located (decode c.src) ((sizeAll p.known.withoutSize).run p.known)
      .ok ⟨p.items, sized.2.types⟩) := rfl
  rw [parts, Extraction.layout_eq]
  cases lineage : ds.lineage c with
  | error cause =>
    exact congrArg (fun failure => Except.error (none, failure))
      (of_concernsNode (Declarations.lineage_error lineage)).symm
  | ok bases =>
    obtain ⟨same, ends⟩ := addVariables_eq counted Sound.start
    change (addVariables ds decode _ (variablesOf bases) .start >>= _) = _
    rw [same]
    cases placed : Extraction.addVariables ds decode (ds.registrationFuel c)
      (variablesOf bases) .start with
    | error e =>
      simp only [placed]
      rfl
    | ok p =>
      have sizing := (sizeAll_mirrors p.known.withoutSize p.known (ends p placed).shaped).1
      change (located (decode c.src) ((sizeAll p.known.withoutSize).run p.known) >>= _) = _
      rw [sizing]
      simp only [placed]
      cases (Sizing.sizeAll p.known.withoutSize).run p.known <;> rfl

/--
A machine that watches its arithmetic ends as the extraction does, for every program and
contract. No fault is met, and a checked number overflows at the types that are refused as too
large and at no others.
-/
theorem layout_never_faults (ds : Declarations) (decode : String → String) (c : Contract)
    (counted : ds.EnumsCounted) :
    layout ds decode c = (Extraction.layout ds decode c).mapError failed ∧
      (∀ location what, layout ds decode c ≠ .error (location, .fault what)) ∧
      ∀ location id, layout ds decode c = .error (location, .overflow id) ↔
        Extraction.layout ds decode c = .error ⟨location, .oversizedType id⟩ := by
  rw [layout_eq ds decode c counted]
  refine ⟨rfl, ?_⟩
  cases Extraction.layout ds decode c with
  | ok l => exact ⟨nofun, fun _ _ => ⟨nofun, nofun⟩⟩
  | error e =>
    obtain ⟨location, cause⟩ := e
    constructor
    · intro other what same
      exact of_ne_fault cause what (congrArg Prod.snd (Except.error.inj same))
    · intro other id
      simp only [Except.mapError, failed, Except.error.injEq, Prod.mk.injEq,
        ExtractionError.mk.injEq, of_eq_overflow_iff]

end Layouts

/-! ### An array with one element too many -/

def season : EnumDefinition := ⟨1, "Season", some "Season", ["Wet", "Dry"], ""⟩

/-- A contract whose sacks take one byte more than a word can count. -/
def granary : Contract :=
  ⟨2, "Granary", [2],
    [.variable (plainVariable 3 "season"
      (.declared 4 1 (some "Season") ⟨some "t_enum$_Season_$1", some "enum Season"⟩)),
    .variable (plainVariable 5 "sacks" (.array 6 (elementaryType 7 "uint256")
      ⟨some ("t_array$_t_uint256_$" ++ Numeral.write (Nat.pow 2 251) ++ "_storage"),
        some "uint256[2 ** 251]"⟩))], ""⟩

def granaryProgram : Declarations := ⟨[.enum season, .contract granary]⟩

/-- The season is placed, and the array of sacks is refused. -/
theorem granary_overflows :
    granaryProgram.EnumsCounted ∧ layout granaryProgram id granary = .error (some "",
      .overflow ("t_array(t_uint256)" ++ Numeral.write (Nat.pow 2 251) ++ "_storage")) := by
  have counted : granaryProgram.EnumsCounted := by
    simp [Declarations.EnumsCounted, granaryProgram, season, Numeral.bound64]
  refine ⟨counted, ((layout_never_faults granaryProgram id granary counted).2.2 _ _).2 ?_⟩
  decide +kernel

end Machine

end UpgradeSafety
