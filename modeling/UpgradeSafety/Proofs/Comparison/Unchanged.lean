import UpgradeSafety.Proofs.Comparison.EditScripts
import UpgradeSafety.Proofs.Comparison.Kinds
import UpgradeSafety.Proofs.Comparison.Silence

/-!
# Types compared with themselves

Two layouts that describe the types of a third one as it does compare these types
with themselves. Such a comparison goes from a type to those that it is made of, but
to the values of a mapping only if nothing inside its keys has unknown members. So
it fails exactly at types that are made of themselves by references that it follows.
-/

namespace UpgradeSafety

open Relation (ReflTransGen TransGen)

lemma mem_zip_self {α : Type} {l : List α} {a b : α} : (a, b) ∈ l.zip l ↔ a = b ∧ a ∈ l := by
  constructor
  · intro place
    have same := (List.forall₂_iff_zip.1 (List.forall₂_same.2 fun (x : α) _ => Eq.refl x)).2 place
    exact ⟨same, (List.of_mem_zip place).1⟩
  · rintro ⟨rfl, member⟩
    obtain ⟨i, hi, rfl⟩ := List.mem_iff_getElem.1 member
    exact List.mem_iff_getElem.2 ⟨i, by simpa using hi, List.getElem_zip⟩

namespace Layout

/-- A type is that of a variable or lies inside one. -/
def Holds (l : Layout) (t : TypeId) : Prop := ∃ item ∈ l.storage, ReflTransGen l.Refers item.type t

/-- A type is no struct or enum with unknown members. -/
def Known (l : Layout) (t : TypeId) : Prop := ∀ kind, l.kind? t = some kind → kind.isOpen = false

/-- No members inside a type are missed by a comparison. -/
def Transparent (l : Layout) (allow : Bool) (t : TypeId) : Prop :=
  allow = true ∨ ∀ u, ReflTransGen l.Refers t u → l.Known u

/--
A type is made of another one that a comparison of the type with itself goes on to: to
the value of a mapping only if no members inside its key are missed.
-/
def Follows (l : Layout) (allow : Bool) (t u : TypeId) : Prop :=
  l.Refers t u ∧ ∀ key value, l.kind? t = some (.mapping key value) →
    u = key ∨ l.Transparent allow key

/-- A layout says the same of the types that another one holds as that does. -/
def AgreesWith (m l : Layout) : Prop := ∀ t, l.Holds t → m.type? t = l.type? t

variable {l m : Layout} {allow : Bool} {t u : TypeId}

lemma Holds.of_mem {item : StorageItem} (member : item ∈ l.storage) : l.Holds item.type :=
  ⟨item, member, .refl⟩

lemma Holds.trans (held : l.Holds t) (inside : ReflTransGen l.Refers t u) : l.Holds u :=
  let ⟨item, member, reached⟩ := held
  ⟨item, member, reached.trans inside⟩

/-- Everything that a layout holds is entered, if its items are and what entered types refer to. -/
lemma Holds.entered (items : ∀ item ∈ l.storage, ∃ info, l.type? item.type = some info)
    (references : ∀ {t info}, l.type? t = some info →
      ∀ u ∈ info.kind.references, ∃ info', l.type? u = some info') (held : l.Holds t) :
    ∃ info, l.type? t = some info := by
  obtain ⟨item, member, inside⟩ := held
  induction inside with
  | refl => exact items item member
  | tail _ refers _ =>
    obtain ⟨info, found, mem⟩ := refers
    exact references found _ mem

lemma Transparent.inside (transparent : l.Transparent allow t)
    (inside : ReflTransGen l.Refers t u) : l.Transparent allow u :=
  transparent.imp_right fun known v further => known v (inside.trans further)

lemma Follows.inside (followed : ReflTransGen (l.Follows allow) t u) :
    ReflTransGen l.Refers t u :=
  ReflTransGen.mono (fun _ _ (step : l.Follows allow _ _) => step.1) _ _ followed

lemma AgreesWith.kind (agrees : m.AgreesWith l) (held : l.Holds t) : m.kind? t = l.kind? t := by
  rw [kind?, agrees t held, kind?]

end Layout

/-! ## The rule for a type and itself -/

lemma inside_self_iff {compatible : TypeId → TypeId → Prop} {kind : TypeKind} {u v : TypeId} :
    Inside compatible (some kind) (some kind) u v ↔ u = v ∧ u ∈ kind.references ∧
      ∀ key value, kind = .mapping key value → u = key ∨ compatible key key := by
  constructor
  · intro inside
    cases inside with
    | member place =>
      obtain ⟨rfl, member⟩ := mem_zip_self.1 place
      exact ⟨rfl, List.mem_map_of_mem member, nofun⟩
    | key => exact ⟨rfl, List.mem_cons_self, fun _ _ same => .inl (TypeKind.mapping.inj same).1⟩
    | value keys =>
      refine ⟨rfl, .tail _ List.mem_cons_self, fun _ _ same => .inr ?_⟩
      exact (TypeKind.mapping.inj same).1 ▸ keys
    | element => exact ⟨rfl, List.mem_cons_self, nofun⟩
  · rintro ⟨rfl, member, keys⟩
    cases kind with
    | value => cases member
    | contract => cases member
    | enum members => cases member
    | struct members =>
      cases members with
      | none => cases member
      | some members =>
        obtain ⟨a, here, rfl⟩ := List.mem_map.1 member
        exact .member (mem_zip_self.2 ⟨rfl, here⟩)
    | mapping key value =>
      rcases List.mem_cons.1 member with rfl | member
      · exact .key
      · obtain rfl := List.mem_singleton.1 member
        rcases keys key u rfl with rfl | keys
        · exact .key
        · exact .value keys
    | array element length =>
      obtain rfl := List.mem_singleton.1 member
      exact .element

lemma Rule.accepted_references {related : TypeId → TypeId → Prop} {allow : Bool} {t u : TypeId}
    {kind : TypeKind} (accepted : (ofKinds t t (some kind) (some kind)).AcceptedBy allow related)
    (member : u ∈ kind.references) : related u u := by
  have inside : Inside (fun _ _ => True) (some kind) (some kind) u u :=
    inside_self_iff.2 ⟨rfl, member, fun _ _ _ => .inr trivial⟩
  exact accepted.asked (ofKinds_asks.2 inside)

/-- A type without unknown members may take its own place if the types that it refers to may. -/
lemma Rule.ofKinds_self {related : TypeId → TypeId → Prop} {allow : Bool} {t : TypeId}
    {kind : TypeKind} (known : allow = true ∨ kind.isOpen = false)
    (inside : ∀ u ∈ kind.references, related u u) :
    (ofKinds t t (some kind) (some kind)).AcceptedBy allow related := by
  cases kind with
  | value => simp [ofKinds, AcceptedBy]
  | contract => trivial
  | struct members =>
    cases members with
    | none => exact known.resolve_right (by decide)
    | some members =>
      refine List.forall₂_same.2 fun a member => ⟨?_, inside _ (List.mem_map_of_mem member)⟩
      simp [Comparison.sameLabel]
  | enum members =>
    cases members with
    | none => exact known.resolve_right (by decide)
    | some members => exact enums_accepted_iff.2 ⟨rfl, enumEdits_self members⟩
  | mapping key value => exact ⟨inside _ List.mem_cons_self, inside _ (.tail _ List.mem_cons_self)⟩
  | array element length => exact arrays_accepted_iff.2 ⟨rfl, inside _ List.mem_cons_self⟩

namespace Comparison

section Unchanged

variable {l old new : Layout} {allow : Bool} {path : List TypePair} {label : String}
  {t u v : TypeId} {change : Option Change} (inOld : old.AgreesWith l) (inNew : new.AgreesWith l)

include inOld inNew

/-- Where no members are missed, a type shows no change. -/
lemma no_change_of_transparent (held : l.Holds t) (transparent : l.Transparent allow t)
    (ended : plainTypes old new allow path label t t = .ok change) : change = none := by
  have closed : ∀ {x y}, (x = y ∧ l.Holds x ∧ l.Transparent allow x) →
      (Rule.ofTypes old new x y).AcceptedBy allow
        fun x y => x = y ∧ l.Holds x ∧ l.Transparent allow x := by
    rintro x _ ⟨rfl, held, transparent⟩
    rw [Rule.ofTypes, inOld.kind held, inNew.kind held]
    cases kind : l.kind? x with
    | none => simp [Rule.ofKinds, Rule.AcceptedBy]
    | some _ =>
      refine Rule.ofKinds_self (transparent.imp_right fun known => known x .refl _ kind) ?_
      intro u member
      have inside : ReflTransGen l.Refers x u := .single (Layout.refers_of_kind? kind member)
      exact ⟨rfl, held.trans inside, transparent.inside inside⟩
  exact no_change_of_related closed ended ⟨rfl, held, transparent⟩

lemma refers_compatible (held : l.Holds t) (compatible : Compatible old new allow t t)
    (refers : l.Refers t u) : Compatible old new allow u u := by
  obtain ⟨item, found, member⟩ := refers
  have kind := Layout.kind?_of_type? found
  have accepted := compatible_iff.1 compatible
  rw [Rule.ofTypes, inOld.kind held, inNew.kind held, kind] at accepted
  exact Rule.accepted_references accepted member

/-- Whatever is inside a type that may take its own place may do so as well. -/
lemma inside_compatible (held : l.Holds t) (compatible : Compatible old new allow t t)
    (inside : ReflTransGen l.Refers t u) : Compatible old new allow u u := by
  induction inside with
  | refl => exact compatible
  | tail before refers ih =>
    exact refers_compatible inOld inNew (held.trans before) ih refers

/-- Inside a type that may take its own place no members are missed. -/
lemma transparent_of_compatible (held : l.Holds t) (compatible : Compatible old new allow t t) :
    l.Transparent allow t := by
  cases allow with
  | true => exact .inl rfl
  | false =>
    refine .inr fun u inside => ?_
    -- every type on the way may take its own place, so no key on the way hides what is behind it
    have here := inside_compatible inOld inNew held compatible inside
    intro kind found
    have accepted := compatible_iff.1 here
    rw [Rule.ofTypes, inOld.kind (held.trans inside), inNew.kind (held.trans inside),
      found] at accepted
    exact Rule.closed_left accepted

lemma leadsTo_self_iff (held : l.Holds t) : LeadsTo old new allow (t, t) (u, v) ↔
    u = v ∧ l.Refers t u ∧ ∀ key value, l.kind? t = some (.mapping key value) →
      u = key ∨ Compatible old new allow key key := by
  change Inside _ (old.kind? t) (new.kind? t) u v ↔ _
  rw [inOld.kind held, inNew.kind held]
  constructor
  · intro inside
    obtain ⟨kind, _, found, -, -⟩ := inside.references
    rw [found] at inside
    obtain ⟨rfl, member, keys⟩ := inside_self_iff.1 inside
    refine ⟨rfl, Layout.refers_of_kind? found member, fun key value mapping => ?_⟩
    exact keys key value (Option.some.inj (found.symm.trans mapping))
  · rintro ⟨rfl, ⟨item, found, member⟩, keys⟩
    have kind := Layout.kind?_of_type? found
    rw [kind] at keys ⊢
    refine inside_self_iff.2 ⟨rfl, member, fun key value mapping => ?_⟩
    exact keys key value (congrArg some mapping)

lemma follows_of_leadsTo (held : l.Holds t) (leads : LeadsTo old new allow (t, t) (u, v)) :
    u = v ∧ l.Follows allow t u := by
  obtain ⟨same, refers, keys⟩ := (leadsTo_self_iff inOld inNew held).1 leads
  refine ⟨same, refers, fun key value mapping => (keys key value mapping).imp_right ?_⟩
  have inside : l.Refers t key := Layout.refers_of_kind? mapping List.mem_cons_self
  exact transparent_of_compatible inOld inNew (held.trans (.single inside))

/-- All that is reached from a type and itself are types and themselves. -/
lemma reached_self (held : l.Holds t)
    (reached : ReflTransGen (LeadsTo old new allow) (t, t) (u, v)) :
    u = v ∧ ReflTransGen (l.Follows allow) t u := by
  generalize pair : (u, v) = p at reached
  induction reached generalizing u v with
  | refl =>
    cases pair
    exact ⟨rfl, .refl⟩
  | @tail q _ _ leads ih =>
    subst pair
    obtain ⟨x, y⟩ := q
    obtain ⟨rfl, followed⟩ := ih rfl
    have here := held.trans (Layout.Follows.inside followed)
    obtain ⟨same, follows⟩ := follows_of_leadsTo inOld inNew here leads
    exact ⟨same, followed.tail follows⟩

lemma cycle_self (held : l.Holds t) (cycle : TransGen (LeadsTo old new allow) (t, t) (t, t)) :
    TransGen (l.Follows allow) t t := by
  obtain ⟨⟨u, _⟩, reached, leads⟩ := TransGen.tail'_iff.1 cycle
  obtain ⟨rfl, followed⟩ := reached_self inOld inNew held reached
  have here := held.trans (Layout.Follows.inside followed)
  exact .tail' followed (follows_of_leadsTo inOld inNew here leads).2

/-- Types that are not made of themselves may take their own places if no members are missed. -/
lemma compatible_self (held : l.Holds t) (transparent : l.Transparent allow t)
    (acyclic : ∀ u, ReflTransGen (l.Follows allow) t u → ¬ TransGen (l.Follows allow) u u) :
    Compatible old new allow t t := by
  intro label
  cases run : plainTypes old new allow [] label t t with
  | ok change => rw [no_change_of_transparent inOld inNew held transparent run]
  | error cause =>
    obtain ⟨reached, found⟩ := plainTypes_error run
    obtain ⟨same, followed⟩ := reached_self inOld inNew held reached
    rcases found with passed | cycle
    · cases passed
    · rw [← same] at cycle
      have here := held.trans (Layout.Follows.inside followed)
      exact absurd (cycle_self inOld inNew here cycle) (acyclic _ followed)

end Unchanged

end Comparison

end UpgradeSafety
