import UpgradeSafety.Extraction.Sizing
import UpgradeSafety.Proofs.Extraction.Registered

/-!
# What sizing finds

The footprint of a type as it follows from the size rules, and that every
footprint found along the way is one that follows from them. Nothing is said
about which types have a footprint.
-/

namespace UpgradeSafety

/-- The footprint of a type follows from the size rules. -/
inductive HasFootprint (rules : Table SizeRule) : TypeId → Footprint → Prop where
  | known {id : TypeId} {f : Footprint} (rule : rules.find? id = some (.known f)) :
      HasFootprint rules id f
  | sameAs {id other : TypeId} {f : Footprint} (rule : rules.find? id = some (.sameAs other))
      (inner : HasFootprint rules other f) : HasFootprint rules id f
  | fixedArray {id element : TypeId} {length : Nat} {g f : Footprint}
      (rule : rules.find? id = some (.fixedArray element length))
      (inner : HasFootprint rules element g) (size : g.fixedArray? length = some f) :
      HasFootprint rules id f
  | struct {id : TypeId} {members : List TypeId} {fs : List Footprint} {f : Footprint}
      (rule : rules.find? id = some (.struct members)) (lengths : members.length = fs.length)
      (inner : ∀ p ∈ members.zip fs, HasFootprint rules p.1 p.2)
      (size : Footprint.struct? fs = some f) : HasFootprint rules id f

namespace HasFootprint

variable {rules rules' : Table SizeRule} {id : TypeId} {f : Footprint}

lemma mono (h : HasFootprint rules id f)
    (extend : ∀ id rule, rules.find? id = some rule → rules'.find? id = some rule) :
    HasFootprint rules' id f := by
  induction h with
  | known rule => exact .known (extend _ _ rule)
  | sameAs rule _ ih => exact .sameAs (extend _ _ rule) ih
  | fixedArray rule _ size ih => exact .fixedArray (extend _ _ rule) ih size
  | struct rule lengths _ size ih => exact .struct (extend _ _ rule) lengths ih size

lemma has_rule (h : HasFootprint rules id f) : ∃ rule, rules.find? id = some rule := by
  cases h with
  | known rule => exact ⟨_, rule⟩
  | sameAs rule _ => exact ⟨_, rule⟩
  | fixedArray rule _ _ => exact ⟨_, rule⟩
  | struct rule _ _ _ => exact ⟨_, rule⟩

end HasFootprint

/-- The sizes that have been found follow from the rules and are entered with the types. -/
structure Sized (k : KnownTypes) : Prop where
  follows : ∀ {id f}, k.footprints.find? id = some f → HasFootprint k.sizeRules id f
  bytes : ∀ {id f item}, k.footprints.find? id = some f → k.types.find? id = some item →
    item.numberOfBytes = f.bytes

/-- An entry without its size. -/
def TypeItem.exceptSize (item : TypeItem) : TypeItem := { item with numberOfBytes := 0 }

lemma TypeItem.eq_of_exceptSize {item item' : TypeItem} (same : item.exceptSize = item'.exceptSize)
    (bytes : item.numberOfBytes = item'.numberOfBytes) : item = item' := by
  cases item
  cases item'
  cases same
  cases bytes
  rfl

/-- More sizes are known, and nothing else has changed but what the types say of their sizes. -/
structure SizesMore (k after : KnownTypes) : Prop where
  rules : after.sizeRules = k.sizeRules
  origins : after.origins = k.origins
  entries : ∀ id,
    (after.types.find? id).map TypeItem.exceptSize = (k.types.find? id).map TypeItem.exceptSize
  footprints : ∀ {id f}, k.footprints.find? id = some f → after.footprints.find? id = some f

namespace SizesMore

lemma refl (k : KnownTypes) : SizesMore k k := ⟨rfl, rfl, fun _ => rfl, fun h => h⟩

lemma trans {k between after : KnownTypes} (first : SizesMore k between)
    (second : SizesMore between after) : SizesMore k after where
  rules := second.rules.trans first.rules
  origins := second.origins.trans first.origins
  entries id := (second.entries id).trans (first.entries id)
  footprints h := second.footprints (first.footprints h)

lemma kinds {k after : KnownTypes} (more : SizesMore k after) (id : TypeId) :
    (after.types.find? id).map TypeItem.kind = (k.types.find? id).map TypeItem.kind := by
  have same := congrArg (Option.map TypeItem.kind) (more.entries id)
  rwa [Option.map_map, Option.map_map] at same

lemma item_of_after {k after : KnownTypes} (more : SizesMore k after) {id : TypeId}
    {item : TypeItem} (found : after.types.find? id = some item) :
    ∃ before, k.types.find? id = some before ∧ before.kind = item.kind := by
  have same := more.kinds id
  rw [found, Option.map_some, eq_comm, Option.map_eq_some_iff] at same
  exact same

lemma item_of_before {k after : KnownTypes} (more : SizesMore k after) {id : TypeId}
    {item : TypeItem} (found : k.types.find? id = some item) :
    ∃ later, after.types.find? id = some later ∧ later.kind = item.kind := by
  have same := more.kinds id
  rw [found, Option.map_some, Option.map_eq_some_iff] at same
  exact same

end SizesMore

lemma Described.sizesMore {ds : Declarations} {uses : TypeName → Prop}
    {pending : TypeId → Prop} {k after : KnownTypes} (h : Described ds uses pending k)
    (more : SizesMore k after) : Described ds uses pending after where
  accounted {id item} found ready := by
    obtain ⟨before, found, kind⟩ := more.item_of_after found
    obtain ⟨rule, hr, account⟩ := h.accounted found ready
    refine ⟨rule, by rw [more.rules, hr], (kind ▸ account).mono fun found => ?_⟩
    obtain ⟨later, found, _⟩ := more.item_of_before found
    exact ⟨later, found⟩
  entered {id rule} hr := by
    obtain ⟨item, found⟩ := h.entered (by rw [← more.rules, hr])
    obtain ⟨later, found, _⟩ := more.item_of_before found
    exact ⟨later, found⟩

namespace Sized

lemma empty : Sized .empty where
  follows h := by cases h
  bytes h := by cases h

/-- Sizes stay true while more types are registered. -/
lemma keeps {ds : Declarations} {uses : TypeName → Prop} {pending : TypeId → Prop}
    {k after : KnownTypes} (sized : Sized k) (known : Described ds uses pending k)
    (kept : Keeps k after) : Sized after where
  follows {id f} h := by
    rw [kept.footprints] at h
    refine (sized.follows h).mono fun x rule hr => ?_
    obtain ⟨item, found⟩ := known.entered hr
    exact kept.rules found hr
  bytes {id f item} h found := by
    rw [kept.footprints] at h
    obtain ⟨rule, hr⟩ := (sized.follows h).has_rule
    obtain ⟨before, old⟩ := known.entered hr
    have same : before = item := Option.some.inj ((kept.types old).symm.trans found)
    exact same ▸ sized.bytes h old

lemma putFootprint {k : KnownTypes} (sized : Sized k) {id : TypeId} {f : Footprint}
    (has : HasFootprint k.sizeRules id f) : Sized (k.putFootprint id f) where
  follows {x g} h := by
    change (k.footprints.insert id f).find? x = some g at h
    rw [Table.find?_insert] at h
    by_cases same : x = id
    · rw [if_pos same] at h
      cases h
      exact same ▸ has
    · rw [if_neg same] at h
      exact sized.follows h
  bytes {x g item} h found := by
    change (k.footprints.insert id f).find? x = some g at h
    change (k.types.adjust id fun item => { item with numberOfBytes := f.bytes }).find? x =
      some item at found
    rw [Table.find?_insert] at h
    rw [Table.find?_adjust] at found
    by_cases same : x = id
    · rw [if_pos same] at h found
      obtain ⟨before, _, rfl⟩ := Option.map_eq_some_iff.1 found
      cases h
      rfl
    · rw [if_neg same] at h found
      exact sized.bytes h found

end Sized

lemma SizesMore.putFootprint {k after : KnownTypes} (more : SizesMore k after) {id : TypeId}
    (fresh : k.footprints.find? id = none) (f : Footprint) :
    SizesMore k (after.putFootprint id f) where
  rules := more.rules
  origins := more.origins
  entries x := by
    rw [← more.entries x]
    change ((after.types.adjust id fun item => { item with numberOfBytes := f.bytes }).find?
      x).map TypeItem.exceptSize = _
    rw [Table.find?_adjust]
    by_cases same : x = id
    · rw [if_pos same, same, Option.map_map]
      rfl
    · rw [if_neg same]
  footprints {x g} h := by
    have differs := Table.ne_of_find? fresh h
    exact (Table.find?_insert_of_ne after.footprints differs f).trans (more.footprints h)

/-- Whether an error is about the size of a type. -/
def ResolutionError.concernsSize : ResolutionError → Bool
  | .unsupportedType _ => true
  | .oversizedType _ => true
  | .selfContainingType _ => true
  | _ => false

namespace Sizing

open Registering

/-- What finding the footprint of a type leaves behind. -/
structure Finds (k : KnownTypes) (id : TypeId) (f : Footprint) (after : KnownTypes) : Prop where
  sized : Sized after
  more : SizesMore k after
  found : after.footprints.find? id = some f

lemma leads_sized {id : TypeId} {size : Option Footprint} {k : KnownTypes}
    {post : Footprint → KnownTypes → Prop} (ends : ∀ f, size = some f → post f k) :
    Leads (sized id size) k post (·.concernsSize = true) := by
  cases size with
  | none => exact rfl
  | some f => exact ends f rfl

/-- Following a size rule, given how the footprints of other types are found. -/
lemma follow_finds {of : TypeId → Registering Footprint}
    (each : ∀ other k, Sized k → Leads (of other) k (Finds k other) (·.concernsSize = true))
    {k : KnownTypes} (sized : Sized k) {id : TypeId} {rule : SizeRule}
    (hr : k.sizeRules.find? id = some rule) :
    Leads (follow of id rule) k
      (fun f after => Sized after ∧ SizesMore k after ∧ HasFootprint k.sizeRules id f)
      (·.concernsSize = true) := by
  cases rule with
  | known f => exact ⟨sized, .refl k, .known hr⟩
  | sameAs other =>
    refine (each other k sized).imp fun f after h => ⟨h.sized, h.more, ?_⟩
    exact .sameAs hr (h.more.rules ▸ h.sized.follows h.found)
  | fixedArray element length =>
    simp only [follow, leads_bind]
    refine (each element k sized).imp fun g after h => ?_
    refine leads_sized fun f size => ⟨h.sized, h.more, ?_⟩
    exact .fixedArray hr (h.more.rules ▸ h.sized.follows h.found) size
  | struct members =>
    simp only [follow, leads_bind]
    refine Leads.imp (leads_mapM of members
      (fun done fs after => Sized after ∧ SizesMore k after ∧ done.length = fs.length ∧
        ∀ p ∈ done.zip fs, HasFootprint k.sizeRules p.1 p.2)
      (fun done member rest _ fs after h => ?_) ⟨sized, .refl k, rfl, by simp⟩)
      fun fs after h => ?_
    · obtain ⟨sized, more, lengths, inner⟩ := h
      refine (each member after sized).imp fun f last h => ?_
      refine ⟨h.sized, more.trans h.more, by simp [lengths], fun p hp => ?_⟩
      rw [List.zip_append lengths] at hp
      rcases List.mem_append.1 hp with hp | hp
      · exact inner p hp
      · rw [List.mem_singleton.1 hp]
        have has := h.sized.follows h.found
        rwa [h.more.rules, more.rules] at has
    · obtain ⟨sized, more, lengths, inner⟩ := h
      exact leads_sized fun f size => ⟨sized, more, .struct hr lengths inner size⟩

/-- One step of sizing: what is remembered, an error, or what the size rule gives. -/
lemma leads_footprintInside {fuel : Nat} {enclosing : List TypeId} {id : TypeId} {k : KnownTypes}
    {post : Footprint → KnownTypes → Prop} {fail : ResolutionError → Prop}
    (remembered : ∀ f, k.footprints.find? id = some f → post f k)
    (inside : id ∈ enclosing → fail (.selfContainingType id))
    (unknown : id ∉ enclosing → k.sizeRules.find? id = none → fail (.unsupportedType id))
    (ruled : ∀ rule, k.footprints.find? id = none → id ∉ enclosing →
      k.sizeRules.find? id = some rule →
        Leads (follow (footprintInside fuel (id :: enclosing)) id rule) k
          (fun f after => post f (after.putFootprint id f)) fail) :
    Leads (footprintInside (fuel + 1) enclosing id) k post fail := by
  rw [footprintInside]
  simp only [leads_bind, leads_get]
  cases size : k.footprints.find? id with
  | some f => exact remembered f size
  | none =>
    by_cases mem : id ∈ enclosing
    · simp only [mem, if_true, leads_throw]
      exact inside mem
    · simp only [mem, if_false, leads_bind, leads_get]
      cases rule : k.sizeRules.find? id with
      | none => exact unknown mem rule
      | some rule' =>
        simp only [leads_bind, leads_modify, leads_pure]
        exact ruled rule' size mem rule

/-- Whatever is found for a type follows from the size rules. -/
lemma footprintInside_finds (fuel : Nat) (enclosing : List TypeId) (id : TypeId)
    {k : KnownTypes} (sized : Sized k) :
    Leads (footprintInside fuel enclosing id) k (Finds k id) (·.concernsSize = true) := by
  induction fuel generalizing enclosing id k with
  | zero =>
    rw [footprintInside]
    simp only [leads_bind, leads_get]
    cases found : k.footprints.find? id with
    | some f => exact ⟨sized, .refl k, found⟩
    | none =>
      by_cases inside : id ∈ enclosing
      · simp only [inside, if_true, leads_throw]
        rfl
      · simp only [inside, if_false, leads_bind, leads_get]
        cases k.sizeRules.find? id <;> rfl
  | succ fuel ih =>
    refine leads_footprintInside (fun f found => ⟨sized, .refl k, found⟩) (fun _ => rfl)
      (fun _ _ => rfl) fun rule fresh _ hr => ?_
    have run := follow_finds (fun other k h => ih (id :: enclosing) other h) sized hr
    refine run.imp fun f after h => ?_
    obtain ⟨sized, more, has⟩ := h
    exact ⟨sized.putFootprint (by rw [more.rules]; exact has), more.putFootprint fresh f,
      Table.find?_insert_self _ _ _⟩

lemma footprint_finds (id : TypeId) {k : KnownTypes} (sized : Sized k) :
    Leads (footprint id) k (Finds k id) (·.concernsSize = true) := by
  rw [footprint]
  simp only [leads_bind, leads_get]
  exact footprintInside_finds _ [] id sized

/-- Afterwards all the given types have sizes. -/
lemma sizeAll_finds (ids : List TypeId) {k : KnownTypes} (sized : Sized k) :
    Leads (sizeAll ids) k (fun _ after => Sized after ∧ SizesMore k after ∧
      ∀ id ∈ ids, ∃ f, after.footprints.find? id = some f) (·.concernsSize = true) := by
  induction ids generalizing k with
  | nil => exact ⟨sized, .refl k, by simp⟩
  | cons id ids ih =>
    have step : sizeAll (id :: ids) = (do discard (footprint id); sizeAll ids) := rfl
    rw [step, leads_bind, leads_discard]
    refine (footprint_finds id sized).imp fun f after h => ?_
    refine (ih h.sized).imp fun _ last others => ?_
    obtain ⟨sized, more, found⟩ := others
    refine ⟨sized, h.more.trans more, fun x hx => ?_⟩
    rcases List.mem_cons.1 hx with rfl | hx
    · exact ⟨f, more.footprints h.found⟩
    · exact found x hx

end Sizing

end UpgradeSafety
