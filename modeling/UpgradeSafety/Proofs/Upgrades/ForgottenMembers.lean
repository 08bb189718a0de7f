import UpgradeSafety.Proofs.Upgrades.Appending

/-!
# Layouts that forget members

To forget the members of structs and enums turns some rules into the one for unknown
members and leaves all others alone. A comparison that lets these pass stays silent.
A strict one that was silent goes on to fewer pairs, so it still comes to an end, and it
reports something exactly if it had come to a type whose members are forgotten and that is
compared by them: where the other layout does not describe a type, its id alone decides.
-/

namespace UpgradeSafety

open Relation (ReflTransGen TransGen)

namespace TypeKind

/-- A struct or an enum. -/
def hasMembers : TypeKind → Bool
  | .struct _ => true
  | .enum _ => true
  | _ => false

/-- The kind where the members of a struct or an enum are not known. -/
def withoutMembers : TypeKind → TypeKind
  | .struct _ => .struct none
  | .enum _ => .enum none
  | kind => kind

lemma withoutMembers_of_plain {kind : TypeKind} (plain : kind.hasMembers = false) :
    kind.withoutMembers = kind := by
  cases kind with
  | struct members => cases plain
  | enum members => cases plain
  | _ => rfl

end TypeKind

lemma TypeItem.forgetMembers_kind (item : TypeItem) :
    item.forgetMembers.kind = item.kind.withoutMembers := by
  cases item with
  | mk label bytes kind => cases kind <;> rfl

lemma TypeItem.forgetMembers_twice (item : TypeItem) :
    item.forgetMembers.forgetMembers = item.forgetMembers := by
  cases item with
  | mk label bytes kind => cases kind <;> rfl

lemma TypeId.impliedKind?_withoutMembers (id : TypeId) :
    id.impliedKind?.map TypeKind.withoutMembers = id.impliedKind? := by
  simp only [TypeId.impliedKind?]
  split
  · rfl
  · split
    · rfl
    · split <;> rfl

namespace Layout

/-- Forgets the members of several types. -/
def forgetAll (l : Layout) (ids : List TypeId) : Layout := ids.foldl forgetMembers l

/-- A struct or an enum among the types whose members are forgotten. -/
def Forgets (l : Layout) (ids : List TypeId) (t : TypeId) : Prop :=
  t ∈ ids ∧ ∃ item, l.type? t = some item ∧ item.kind.hasMembers = true

variable {l : Layout} {ids : List TypeId} {t : TypeId}

lemma forgetAll_storage (l : Layout) (ids : List TypeId) :
    (l.forgetAll ids).storage = l.storage := by
  induction ids generalizing l with
  | nil => rfl
  | cons id ids ih => exact ih (l.forgetMembers id)

lemma forgetMembers_type? (l : Layout) (id t : TypeId) : (l.forgetMembers id).type? t =
    if t = id then (l.type? id).map TypeItem.forgetMembers else l.type? t :=
  Table.find?_adjust l.types id t TypeItem.forgetMembers

lemma forgetAll_type? (l : Layout) (ids : List TypeId) (t : TypeId) : (l.forgetAll ids).type? t =
    if t ∈ ids then (l.type? t).map TypeItem.forgetMembers else l.type? t := by
  induction ids generalizing l with
  | nil => rfl
  | cons id ids ih =>
    have rest : (l.forgetAll (id :: ids)).type? t = ((l.forgetMembers id).forgetAll ids).type? t :=
      rfl
    rw [rest, ih, forgetMembers_type?]
    by_cases here : t = id
    · subst here
      have twice : TypeItem.forgetMembers ∘ TypeItem.forgetMembers = TypeItem.forgetMembers :=
        funext TypeItem.forgetMembers_twice
      simp [twice]
    · simp [here]

lemma forgetAll_kind? (l : Layout) (ids : List TypeId) (t : TypeId) : (l.forgetAll ids).kind? t =
    if t ∈ ids then (l.kind? t).map TypeKind.withoutMembers else l.kind? t := by
  rw [kind?, kind?, forgetAll_type?]
  by_cases here : t ∈ ids
  · rw [if_pos here, if_pos here]
    cases l.type? t with
    | none => exact (TypeId.impliedKind?_withoutMembers t).symm
    | some item => exact congrArg some item.forgetMembers_kind
  · rw [if_neg here, if_neg here]

lemma forgetAll_kind?_eq_none : (l.forgetAll ids).kind? t = none ↔ l.kind? t = none := by
  rw [forgetAll_kind?]
  split
  · exact Option.map_eq_none_iff
  · rfl

/-- What a layout tells of a type changes only if its members are forgotten. -/
lemma forgetAll_kind?_of_not_forgets (kept : ¬ l.Forgets ids t) :
    (l.forgetAll ids).kind? t = l.kind? t := by
  rw [forgetAll_kind?]
  by_cases here : t ∈ ids
  · rw [if_pos here, kind?]
    cases found : l.type? t with
    | none => exact TypeId.impliedKind?_withoutMembers t
    | some item =>
      have plain : item.kind.hasMembers = false :=
        Bool.eq_false_iff.2 fun has => kept ⟨here, item, found, has⟩
      exact congrArg some (TypeKind.withoutMembers_of_plain plain)
  · rw [if_neg here]

lemma Forgets.kind (forgets : l.Forgets ids t) : ∃ kind, l.kind? t = some kind ∧
    kind.hasMembers = true ∧ (l.forgetAll ids).kind? t = some kind.withoutMembers := by
  obtain ⟨here, item, found, has⟩ := forgets
  have known := kind?_of_type? found
  exact ⟨item.kind, known, has, by rw [forgetAll_kind?, if_pos here, known, Option.map_some]⟩

end Layout

/-! ## The rules that change -/

namespace Rule

variable {o n : TypeId} {a b : Option TypeKind}

lemma ofKinds_forgotten_left (a b : Option TypeKind) :
    ofKinds o n (a.map TypeKind.withoutMembers) b = ofKinds o n a b ∨
      ofKinds o n (a.map TypeKind.withoutMembers) b = unknownMembers := by
  cases a with
  | none => exact .inl rfl
  | some kind =>
    cases kind with
    | struct members =>
      cases members with
      | none => exact .inl rfl
      | some members =>
        cases b with
        | none => exact .inl rfl
        | some kind =>
          cases kind with
          | struct _ => exact .inr rfl
          | _ => exact .inl rfl
    | enum members =>
      cases members with
      | none => exact .inl rfl
      | some members =>
        cases b with
        | none => exact .inl rfl
        | some kind =>
          cases kind with
          | enum _ => exact .inr rfl
          | _ => exact .inl rfl
    | _ => exact .inl rfl

lemma ofKinds_forgotten_right (a b : Option TypeKind) :
    ofKinds o n a (b.map TypeKind.withoutMembers) = ofKinds o n a b ∨
      ofKinds o n a (b.map TypeKind.withoutMembers) = unknownMembers := by
  cases a with
  | none => exact .inl rfl
  | some kind =>
    cases kind with
    | struct members =>
      cases b with
      | none => exact .inl rfl
      | some kind =>
        cases kind with
        | struct _ => cases members <;> exact .inr rfl
        | _ => cases members <;> exact .inl rfl
    | enum members =>
      cases b with
      | none => exact .inl rfl
      | some kind =>
        cases kind with
        | enum _ => cases members <;> exact .inr rfl
        | _ => cases members <;> exact .inl rfl
    | _ =>
      cases b with
      | none => exact .inl rfl
      | some kind => cases kind <;> exact .inl rfl

/-- A rule stays the same, or members that it would compare have become unknown. -/
lemma ofTypes_forgotten (old new : Layout) (ids ids' : List TypeId) (o n : TypeId) :
    ofTypes (old.forgetAll ids) (new.forgetAll ids') o n = ofTypes old new o n ∨
      ofTypes (old.forgetAll ids) (new.forgetAll ids') o n = unknownMembers := by
  have left : ∀ b, ofKinds o n ((old.forgetAll ids).kind? o) b = ofKinds o n (old.kind? o) b ∨
      ofKinds o n ((old.forgetAll ids).kind? o) b = unknownMembers := by
    intro b
    rw [Layout.forgetAll_kind?]
    by_cases here : o ∈ ids
    · rw [if_pos here]
      exact ofKinds_forgotten_left _ b
    · rw [if_neg here]
      exact .inl rfl
  have right : ofKinds o n (old.kind? o) ((new.forgetAll ids').kind? n) = ofTypes old new o n ∨
      ofKinds o n (old.kind? o) ((new.forgetAll ids').kind? n) = unknownMembers := by
    rw [Layout.forgetAll_kind?]
    by_cases here : n ∈ ids'
    · rw [if_pos here]
      exact ofKinds_forgotten_right _ _
    · rw [if_neg here]
      exact .inl rfl
  rcases left ((new.forgetAll ids').kind? n) with same | unknown
  · rw [ofTypes, same]
    exact right
  · exact .inr unknown

/-- Where one of two types is not described, their ids alone decide. -/
lemma ofKinds_undescribed (undescribed : a = none ∨ b = none) :
    ofKinds o n a b = if o = n then compatible else incompatible .obviousMismatch := by
  rcases undescribed with rfl | rfl
  · rfl
  · cases a with
    | none => rfl
    | some kind =>
      cases kind with
      | struct members => cases members <;> rfl
      | enum members => cases members <;> rfl
      | _ => rfl

lemma ofKinds_described (unknown : ofKinds o n a b = unknownMembers) : a ≠ none ∧ b ≠ none := by
  by_contra undescribed
  rw [ofKinds_undescribed (by tauto)] at unknown
  split at unknown <;> cases unknown

/-- Two kinds that match and of which one loses its members are no longer compared by them. -/
lemma ofKinds_lost_left {related : TypeId → TypeId → Prop} {a b : TypeKind}
    (kinds : KindsMatch related o n a b) (has : a.hasMembers = true) :
    ofKinds o n (some a.withoutMembers) (some b) = unknownMembers ∧
      ofKinds o n (some a.withoutMembers) (some b.withoutMembers) = unknownMembers := by
  cases kinds with
  | struct _ => exact ⟨rfl, rfl⟩
  | enum _ => exact ⟨rfl, rfl⟩
  | _ => cases has

lemma ofKinds_lost_right {related : TypeId → TypeId → Prop} {a b : TypeKind}
    (kinds : KindsMatch related o n a b) (has : b.hasMembers = true) :
    ofKinds o n (some a) (some b.withoutMembers) = unknownMembers ∧
      ofKinds o n (some a.withoutMembers) (some b.withoutMembers) = unknownMembers := by
  cases kinds with
  | struct _ => exact ⟨rfl, rfl⟩
  | enum _ => exact ⟨rfl, rfl⟩
  | _ => cases has

/-- What an accepting rule asks for does not depend on which keys are taken for compatible. -/
lemma Asks.of_accepted {allow : Bool} {compatible related : TypeId → TypeId → Prop} {rule : Rule}
    {k k' : TypeId} (accepted : rule.AcceptedBy allow related) (asks : rule.Asks compatible k k') :
    rule.Asks related k k' := by
  cases asks with
  | member place => exact .member place
  | key => exact .key
  | value _ => exact .value accepted.1
  | element => exact .element

end Rule

/-! ## Both comparisons -/

/-- A pair of types of which both kinds are known and one loses its members. -/
def LosesMembers (old new : Layout) (ids ids' : List TypeId) (p : TypePair) : Prop :=
  (old.Forgets ids p.1 ∧ new.kind? p.2 ≠ none) ∨ (new.Forgets ids' p.2 ∧ old.kind? p.1 ≠ none)

namespace Comparison

variable {old new : Layout} {ids ids' : List TypeId} {o n : TypeId}

lemma kindsMatch_of_compatible (compatible : Compatible old new false o n) {a b : TypeKind}
    (left : old.kind? o = some a) (right : new.kind? n = some b) :
    KindsMatch (Compatible old new false) o n a b := by
  have accepted := compatible_iff.1 compatible
  rw [Rule.ofTypes, left, right] at accepted
  exact Rule.kindsMatch (Rule.closed_left accepted) (Rule.closed_right accepted) accepted

/-- The rule of a pair that may be exchanged changes exactly if members of it are forgotten. -/
lemma rule_forgotten_iff (compatible : Compatible old new false o n) :
    Rule.ofTypes (old.forgetAll ids) (new.forgetAll ids') o n = .unknownMembers ↔
      LosesMembers old new ids ids' (o, n) := by
  constructor
  · intro unknown
    have accepted := compatible_iff.1 compatible
    have described := Rule.ofKinds_described unknown
    rw [ne_eq, ne_eq, Layout.forgetAll_kind?_eq_none, Layout.forgetAll_kind?_eq_none] at described
    by_cases left : old.Forgets ids o
    · exact .inl ⟨left, described.2⟩
    · by_cases right : new.Forgets ids' n
      · exact .inr ⟨right, described.1⟩
      · rw [Rule.ofTypes, Layout.forgetAll_kind?_of_not_forgets left,
          Layout.forgetAll_kind?_of_not_forgets right, ← Rule.ofTypes] at unknown
        rw [unknown] at accepted
        cases accepted
  · rintro (⟨forgets, described⟩ | ⟨forgets, described⟩)
    · obtain ⟨a, left, has, lost⟩ := forgets.kind
      obtain ⟨b, right⟩ := Option.ne_none_iff_exists'.1 described
      have missing := Rule.ofKinds_lost_left (kindsMatch_of_compatible compatible left right) has
      rw [Rule.ofTypes, lost, Layout.forgetAll_kind?, right]
      by_cases here : n ∈ ids'
      · rw [if_pos here]
        exact missing.2
      · rw [if_neg here]
        exact missing.1
    · obtain ⟨b, right, has, lost⟩ := forgets.kind
      obtain ⟨a, left⟩ := Option.ne_none_iff_exists'.1 described
      have missing := Rule.ofKinds_lost_right (kindsMatch_of_compatible compatible left right) has
      rw [Rule.ofTypes, lost, Layout.forgetAll_kind?, left]
      by_cases here : o ∈ ids
      · rw [if_pos here]
        exact missing.2
      · rw [if_neg here]
        exact missing.1

/-- A comparison that lets unknown members pass does not mind that members are forgotten. -/
lemma Compatible.forgotten (compatible : Compatible old new true o n) :
    Compatible (old.forgetAll ids) (new.forgetAll ids') true o n := by
  refine Compatible.induction (fun o n accepted => compatible_iff.2 ?_) compatible
  rcases Rule.ofTypes_forgotten old new ids ids' o n with same | unknown
  · rw [same]
    exact accepted.mono fun _ _ inside => inside.2
  · rw [unknown]
    rfl

section Strict

variable {p q : TypePair}

/-- What a pair leads to may be exchanged if the pair itself may. -/
lemma LeadsTo.compatible (leads : LeadsTo old new false p q)
    (compatible : Compatible old new false p.1 p.2) : Compatible old new false q.1 q.2 :=
  (compatible_iff.1 compatible).asked (leadsTo_iff_asks.1 leads)

/-- Where nothing is reported, every pair that is reached may be exchanged. -/
lemma Reached.compatible (silent : compareLayouts old new false = .ok [])
    (reached : Reached old new false p) : Compatible old new false p.1 p.2 := by
  obtain ⟨matched, added, parts, fields⟩ := compareLayouts_silent_iff.1 silent
  obtain ⟨a, b, place, inside⟩ := reached
  induction inside with
  | refl =>
    rw [parts, ← List.append_nil old.storage, List.zip_append fields.length_eq] at place
    exact fields.asked (by simpa using place)
  | tail _ leads ih => exact leads.compatible ih

/-- Of what may be exchanged no more is compared than before. -/
lemma LeadsTo.of_forgotten (compatible : Compatible old new false p.1 p.2)
    (leads : LeadsTo (old.forgetAll ids) (new.forgetAll ids') false p q) :
    LeadsTo old new false p q := by
  have asks := leadsTo_iff_asks.1 leads
  rcases Rule.ofTypes_forgotten old new ids ids' p.1 p.2 with same | unknown
  · rw [same] at asks
    exact leadsTo_iff_asks.2 (asks.of_accepted (compatible_iff.1 compatible))
  · rw [unknown] at asks
    cases asks

lemma reached_of_forgotten (compatible : Compatible old new false p.1 p.2)
    (inside : ReflTransGen (LeadsTo (old.forgetAll ids) (new.forgetAll ids') false) p q) :
    ReflTransGen (LeadsTo old new false) p q ∧ Compatible old new false q.1 q.2 := by
  induction inside with
  | refl => exact ⟨.refl, compatible⟩
  | tail _ leads ih =>
    have before := leads.of_forgotten ih.2
    exact ⟨ih.1.tail before, before.compatible ih.2⟩

/-- A strict comparison that was silent still comes to an end. -/
lemma forgotten_ends (silent : compareLayouts old new false = .ok []) (ids ids' : List TypeId) :
    ∃ ops, compareLayouts (old.forgetAll ids) (new.forgetAll ids') false = .ok ops := by
  rw [compareLayouts_eq_plain] at silent ⊢
  cases outcome : plainDifferences (old.forgetAll ids) (new.forgetAll ids') false with
  | ok ops => exact ⟨ops, rfl⟩
  | error cause =>
    obtain ⟨⟨a, b, place, inside⟩, cycle⟩ := cycle_of_error outcome
    rw [Layout.forgetAll_storage, Layout.forgetAll_storage] at place
    have start : Reached old new false (a.type, b.type) := ⟨a, b, place, .refl⟩
    have compatible := start.compatible ((compareLayouts_eq_plain ..).trans silent)
    obtain ⟨inside, here⟩ := reached_of_forgotten compatible inside
    obtain ⟨q, leads, back⟩ := TransGen.head'_iff.1 cycle
    have first := leads.of_forgotten here
    have back := (reached_of_forgotten (first.compatible here) back).1
    exact absurd (.head' first back) ((start.trans inside).not_cyclic silent)

/-- A pair that still may be exchanged has not lost its members, nor have those that it leads to. -/
lemma LeadsTo.still_compatible (leads : LeadsTo old new false p q)
    (still : Compatible (old.forgetAll ids) (new.forgetAll ids') false p.1 p.2) :
    Compatible (old.forgetAll ids) (new.forgetAll ids') false q.1 q.2 := by
  have accepted := compatible_iff.1 still
  rcases Rule.ofTypes_forgotten old new ids ids' p.1 p.2 with same | unknown
  · rw [same] at accepted
    exact accepted.asked (leadsTo_iff_asks.1 leads)
  · rw [unknown] at accepted
    cases accepted

/-- Types may still be exchanged if nothing that they lead to has lost its members. -/
lemma Compatible.still (compatible : Compatible old new false o n)
    (kept : ∀ q, ReflTransGen (LeadsTo old new false) (o, n) q →
      ¬ LosesMembers old new ids ids' q) :
    Compatible (old.forgetAll ids) (new.forgetAll ids') false o n := by
  revert kept
  refine Compatible.induction (motive := fun o n =>
    (∀ q, ReflTransGen (LeadsTo old new false) (o, n) q → ¬ LosesMembers old new ids ids' q) →
      Compatible (old.forgetAll ids) (new.forgetAll ids') false o n)
    (fun o n accepted kept => ?_) compatible
  have compatible := compatible_iff.2 (accepted.mono fun _ _ inside => inside.1)
  have same : Rule.ofTypes (old.forgetAll ids) (new.forgetAll ids') o n =
      Rule.ofTypes old new o n := by
    rcases Rule.ofTypes_forgotten old new ids ids' o n with same | unknown
    · exact same
    · exact absurd ((rule_forgotten_iff compatible).1 unknown) (kept _ .refl)
  refine compatible_iff.2 (same ▸ accepted.asking.mono ?_)
  rintro k k' ⟨⟨-, further⟩, asks⟩
  have leads : LeadsTo old new false (o, n) (k, k') :=
    leadsTo_iff_asks.2 (asks.mono fun _ _ inside => inside.1)
  exact further fun q inside => kept q (.head leads inside)

/-- A strict comparison stays silent exactly if no pair that it reaches has lost its members. -/
lemma forgotten_silent_iff (silent : compareLayouts old new false = .ok []) :
    compareLayouts (old.forgetAll ids) (new.forgetAll ids') false = .ok [] ↔
      ∀ p, Reached old new false p → ¬ LosesMembers old new ids ids' p := by
  constructor
  · intro still p reached loses
    have compatible := reached.compatible silent
    obtain ⟨a, b, place, inside⟩ := reached
    have start : Reached (old.forgetAll ids) (new.forgetAll ids') false (a.type, b.type) :=
      ⟨a, b, by rwa [Layout.forgetAll_storage, Layout.forgetAll_storage], .refl⟩
    have here : Compatible (old.forgetAll ids) (new.forgetAll ids') false p.1 p.2 := by
      clear compatible loses
      induction inside with
      | refl => exact start.compatible still
      | tail _ leads ih => exact leads.still_compatible ih
    have accepted := compatible_iff.1 here
    rw [(rule_forgotten_iff compatible).2 loses] at accepted
    cases accepted
  · intro kept
    obtain ⟨matched, added, parts, fields⟩ := compareLayouts_silent_iff.1 silent
    refine compareLayouts_silent_iff.2 ⟨matched, added, ?_, ?_⟩
    · rw [Layout.forgetAll_storage, parts]
    · rw [Layout.forgetAll_storage]
      refine List.forall₂_iff_zip.2 ⟨fields.length_eq, fun {a b} place => ?_⟩
      have here := (List.forall₂_iff_zip.1 fields).2 place
      have within : (a, b) ∈ old.storage.zip new.storage := by
        rw [parts, ← List.append_nil old.storage, List.zip_append fields.length_eq]
        simpa using place
      exact ⟨here.1, here.2.still fun q inside => kept q ⟨a, b, within, inside⟩⟩

end Strict

end Comparison

/--
Forgetting members is never taken for compatibility. A lenient comparison that reported
nothing still reports nothing. A strict one that reported nothing still comes to an end,
and it reports something exactly if a pair that it had reached, with both kinds known,
loses its members.
-/
theorem forgotten_members_are_reported (old new : Layout) (ids ids' : List TypeId) :
    (compareLayouts old new true = .ok [] →
      compareLayouts (old.forgetAll ids) (new.forgetAll ids') true = .ok []) ∧
    (compareLayouts old new false = .ok [] →
      ∃ ops, compareLayouts (old.forgetAll ids) (new.forgetAll ids') false = .ok ops ∧
        (ops ≠ [] ↔ ∃ p, Comparison.Reached old new false p ∧
          LosesMembers old new ids ids' p)) := by
  constructor
  · intro silent
    obtain ⟨matched, added, parts, fields⟩ := Comparison.compareLayouts_silent_iff.1 silent
    refine Comparison.compareLayouts_silent_iff.2 ⟨matched, added, ?_, ?_⟩
    · rw [Layout.forgetAll_storage, parts]
    · rw [Layout.forgetAll_storage]
      exact fields.mono fun _ _ compatible => compatible.forgotten
  · intro silent
    obtain ⟨ops, ended⟩ := Comparison.forgotten_ends silent ids ids'
    refine ⟨ops, ended, ?_⟩
    have exactly : compareLayouts (old.forgetAll ids) (new.forgetAll ids') false = .ok [] ↔ _ :=
      Comparison.forgotten_silent_iff silent
    rw [ended] at exactly
    rw [ne_eq, ← Except.ok.injEq (ε := Recursion) ops [], exactly]
    push Not
    rfl

/-- The bids are reached through a mapping and an array; the new layout forgets their members. -/
theorem auction_forgets_bids :
    compareLayouts auction auctionWithFee true = .ok [] ∧
      compareLayouts (auction.forgetAll [])
        (auctionWithFee.forgetAll ["t_struct(Bid)storage"]) true = .ok [] ∧
      compareLayouts auction auctionWithFee false = .ok [] ∧
      ∃ ops, compareLayouts (auction.forgetAll [])
        (auctionWithFee.forgetAll ["t_struct(Bid)storage"]) false = .ok ops ∧ ops ≠ [] := by
  have lenient : compareLayouts auction auctionWithFee true = .ok [] :=
    Comparison.Outcome.eq_ok_nil (by decide +kernel)
  have strict : compareLayouts auction auctionWithFee false = .ok [] :=
    Comparison.Outcome.eq_ok_nil (by decide +kernel)
  have forgotten :=
    forgotten_members_are_reported auction auctionWithFee [] ["t_struct(Bid)storage"]
  obtain ⟨ops, ended, reported⟩ := forgotten.2 strict
  refine ⟨lenient, forgotten.1 lenient, strict, ops, ended, reported.2 ?_⟩
  have keys : Comparison.Compatible auction auctionWithFee false "t_address" "t_address" :=
    Comparison.compatible_iff.2 trivial
  have values : Comparison.LeadsTo auction auctionWithFee false
      ("t_mapping(t_address,t_array(t_struct(Bid)storage)dyn_storage)",
        "t_mapping(t_address,t_array(t_struct(Bid)storage)dyn_storage)")
      ("t_array(t_struct(Bid)storage)dyn_storage", "t_array(t_struct(Bid)storage)dyn_storage") :=
    .value keys
  have elements : Comparison.LeadsTo auction auctionWithFee false
      ("t_array(t_struct(Bid)storage)dyn_storage", "t_array(t_struct(Bid)storage)dyn_storage")
      ("t_struct(Bid)storage", "t_struct(Bid)storage") := .element
  refine ⟨_, ⟨_, _, .tail _ List.mem_cons_self, .tail (.single values) elements⟩, .inr ⟨?_, ?_⟩⟩
  · exact ⟨List.mem_singleton_self _, _, rfl, rfl⟩
  · exact Option.some_ne_none _

/-- A variable of a struct whose id does not show that it is one. -/
def pointVault : Layout :=
  ⟨[⟨"Vault", "origin", "Point", 0, 0, none, none⟩],
   Table.ofList [("Point", ⟨"struct Point", 32, .struct (some [⟨"x", "t_uint256"⟩])⟩)]⟩

/-- The same variable in a layout that does not describe its type. -/
def undescribedVault : Layout := ⟨pointVault.storage, .empty⟩

/-- A struct that the other layout does not describe is taken for the same type by its id alone. -/
theorem undescribed_struct_stays_silent :
    compareLayouts pointVault undescribedVault false = .ok [] ∧
      Comparison.Reached pointVault undescribedVault false ("Point", "Point") ∧
      pointVault.Forgets ["Point"] "Point" ∧
      compareLayouts (pointVault.forgetAll ["Point"]) (undescribedVault.forgetAll []) false =
        .ok [] :=
  ⟨Comparison.Outcome.eq_ok_nil (by decide +kernel), ⟨_, _, List.mem_cons_self, .refl⟩,
    ⟨List.mem_cons_self, _, rfl, rfl⟩, Comparison.Outcome.eq_ok_nil (by decide +kernel)⟩

end UpgradeSafety
