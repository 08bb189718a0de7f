import Mathlib.Data.Finset.Card
import UpgradeSafety.Proofs.Compilation.Occurrences

/-!
# How deep a registration goes

A registration that ends with some fuel ends in the same way with fuel for as many
annotations as a program has, once for each id that can still be entered. How it goes on
is decided by the ids that have been entered, so as long as no id is added no annotation
is met again inside itself.
-/

namespace UpgradeSafety

namespace Declarations

/-- The ids once an annotation is being described: a struct is entered at once. -/
def openedIds (ids : Finset TypeId) (id : TypeId) :
    TypeName → Option Declaration → Finset TypeId
  | .declared .., some (.struct _) => insert id ids
  | _, _ => ids

/--
The ids that have been entered when an annotation has been registered, if the fuel is
enough. That anything else may fail is not considered.
-/
def entering (ds : Declarations) : Nat → TypeName → Finset TypeId → Option (Finset TypeId)
  | 0, _, _ => none
  | fuel + 1, t, ids =>
    (ds.idOf? t).bind fun id =>
      if id ∈ ids then some ids
      else ((ds.inside t).foldlM (fun ids u => ds.entering fuel u ids)
        (openedIds ids id t (ds.declarationOf? t))).map (insert id)

/-- The ids that have been entered when annotations have been registered one after another. -/
def enteringAll (ds : Declarations) (fuel : Nat) (ts : List TypeName) (ids : Finset TypeId) :
    Option (Finset TypeId) :=
  ts.foldlM (fun ids t => ds.entering fuel t ids) ids

variable {ds : Declarations} {fuel fuel' : Nat} {t : TypeName} {ts : List TypeName}
  {ids last last' : Finset TypeId} {id : TypeId}

lemma openedIds_cases (ids : Finset TypeId) (id : TypeId) (t : TypeName) (d : Option Declaration) :
    openedIds ids id t d = insert id ids ∨ openedIds ids id t d = ids := by
  unfold openedIds
  split
  · exact Or.inl rfl
  · exact Or.inr rfl

lemma entering_known (named : ds.idOf? t = some id) (old : id ∈ ids) :
    ds.entering (fuel + 1) t ids = some ids := by
  rw [entering, named, Option.bind_some, if_pos old]

lemma entering_new (named : ds.idOf? t = some id) (new : id ∉ ids) :
    ds.entering (fuel + 1) t ids =
      (ds.enteringAll fuel (ds.inside t) (openedIds ids id t (ds.declarationOf? t))).map
        (insert id) := by
  rw [entering, named, Option.bind_some, if_neg new]
  rfl

/-- An annotation has been registered: it was known, or what is inside it has been registered. -/
lemma entering_eq_some (h : ds.entering (fuel + 1) t ids = some last) :
    ∃ id, ds.idOf? t = some id ∧ (id ∈ ids ∧ last = ids ∨ id ∉ ids ∧ ∃ between,
      ds.enteringAll fuel (ds.inside t) (openedIds ids id t (ds.declarationOf? t)) =
        some between ∧ last = insert id between) := by
  cases named : ds.idOf? t with
  | none =>
    rw [entering, named] at h
    cases h
  | some id =>
    refine ⟨id, rfl, ?_⟩
    by_cases old : id ∈ ids
    · rw [entering_known named old] at h
      exact Or.inl ⟨old, (Option.some.inj h).symm⟩
    · rw [entering_new named old] at h
      obtain ⟨between, inner, rfl⟩ := Option.map_eq_some_iff.1 h
      exact Or.inr ⟨old, between, inner, rfl⟩

/-! ## One annotation after another -/

lemma enteringAll_append (done rest : List TypeName) :
    ds.enteringAll fuel (done ++ rest) ids =
      (ds.enteringAll fuel done ids).bind (ds.enteringAll fuel rest) :=
  List.foldlM_append

lemma enteringAll_concat (done : List TypeName) (u : TypeName) :
    ds.enteringAll fuel (done ++ [u]) ids =
      (ds.enteringAll fuel done ids).bind (ds.entering fuel u) := by
  rw [enteringAll_append]
  congr 1
  funext between
  exact Option.bind_fun_some (ds.entering fuel u between)

/-- The annotations before one in the list, and that one, have been registered. -/
lemma enteringAll_split {done rest : List TypeName} {u : TypeName}
    (whole : ds.enteringAll fuel (done ++ u :: rest) ids = some last) :
    ∃ before after, ds.enteringAll fuel done ids = some before ∧
      ds.entering fuel u before = some after := by
  rw [enteringAll_append] at whole
  obtain ⟨before, first, others⟩ := Option.bind_eq_some_iff.1 whole
  obtain ⟨after, second, _⟩ := Option.bind_eq_some_iff.1 others
  exact ⟨before, after, first, second⟩

/-- Annotations are registered if each of them is where the ones before it have led. -/
lemma enteringAll_of_each (whole : ds.enteringAll fuel ts ids = some last)
    (each : ∀ done u rest, ts = done ++ u :: rest → ∀ before after,
      ds.enteringAll fuel done ids = some before → ds.entering fuel u before = some after →
      ds.entering fuel' u before = some after) :
    ds.enteringAll fuel' ts ids = some last := by
  induction ts using List.reverseRecOn generalizing last with
  | nil => exact whole
  | append_singleton done u ih =>
    rw [enteringAll_concat] at whole ⊢
    obtain ⟨before, first, second⟩ := Option.bind_eq_some_iff.1 whole
    have earlier := ih first fun done' u' rest parts =>
      each done' u' (rest ++ [u]) (by rw [parts]; simp)
    rw [earlier, Option.bind_some]
    exact each done u [] rfl before last first second

/-! ## More fuel changes nothing -/

lemma entering_succ (h : ds.entering fuel t ids = some last) :
    ds.entering (fuel + 1) t ids = some last := by
  induction fuel generalizing t ids last with
  | zero => cases h
  | succ fuel ih =>
    obtain ⟨id, named, ⟨old, rfl⟩ | ⟨new, between, inner, rfl⟩⟩ := entering_eq_some h
    · exact entering_known named old
    · have more := enteringAll_of_each inner fun _ _ _ _ _ _ _ step => ih step
      rw [entering_new named new, more, Option.map_some]

lemma entering_mono (enough : fuel ≤ fuel') (h : ds.entering fuel t ids = some last) :
    ds.entering fuel' t ids = some last := by
  induction enough with
  | refl => exact h
  | step _ ih => exact entering_succ ih

lemma enteringAll_mono (enough : fuel ≤ fuel') (h : ds.enteringAll fuel ts ids = some last) :
    ds.enteringAll fuel' ts ids = some last :=
  enteringAll_of_each h fun _ _ _ _ _ _ _ step => entering_mono enough step

lemma enteringAll_unique (h : ds.enteringAll fuel ts ids = some last)
    (h' : ds.enteringAll fuel' ts ids = some last') : last = last' := by
  have more := enteringAll_mono (Nat.le_max_left fuel fuel') h
  have more' := enteringAll_mono (Nat.le_max_right fuel fuel') h'
  exact Option.some.inj (more.symm.trans more')

/-! ## Enough fuel -/

/-- Annotations with everything inside them, and the ids that they have. -/
structure Encloses (ds : Declarations) (types : Finset TypeName) (names : Finset TypeId) :
    Prop where
  inside : ∀ t ∈ types, ∀ u ∈ ds.inside t, u ∈ types
  named : ∀ t ∈ types, ∀ id, ds.idOf? t = some id → id ∈ names

variable {types : Finset TypeName} {names : Finset TypeId}

/-- Ids are only added, and only such as the annotations have. -/
def Adds (names ids last : Finset TypeId) : Prop := ids ⊆ last ∧ last ⊆ ids ∪ names

lemma Adds.trans {between : Finset TypeId} (first : Adds names ids between)
    (second : Adds names between last) : Adds names ids last := by
  refine ⟨first.1.trans second.1, second.2.trans ?_⟩
  exact Finset.union_subset first.2 Finset.subset_union_right

lemma Adds.insert (h : Adds names ids last) (mem : id ∈ names) :
    Adds names ids (insert id last) := by
  refine ⟨h.1.trans (Finset.subset_insert id last), Finset.insert_subset ?_ h.2⟩
  exact Finset.mem_union_right ids mem

lemma Adds.refl (names ids : Finset TypeId) : Adds names ids ids :=
  ⟨Finset.Subset.refl ids, Finset.subset_union_left⟩

/-- What is taken away in addition leaves less. -/
lemma card_sdiff_lt {α : Type} [DecidableEq α] {all few many : Finset α} (more : few ⊆ many)
    {x : α} (mem : x ∈ all) (fresh : x ∉ few) (taken : x ∈ many) :
    (all \ many).card < (all \ few).card := by
  apply Finset.card_lt_card
  refine ⟨Finset.sdiff_subset_sdiff (Finset.Subset.refl all) more, fun back => ?_⟩
  have here := back (Finset.mem_sdiff.2 ⟨mem, fresh⟩)
  exact (Finset.mem_sdiff.1 here).2 taken

/-- Where an id was added, fewer are left. -/
lemma Adds.card_lt (h : Adds names ids last) (more : ¬ last ⊆ ids) :
    (names \ last).card < (names \ ids).card := by
  obtain ⟨id, mem, fresh⟩ := Finset.not_subset.1 more
  have named : id ∈ names := (Finset.mem_union.1 (h.2 mem)).resolve_left fresh
  exact card_sdiff_lt h.1 named fresh mem

lemma enteringAll_adds_of_each (each : ∀ u ∈ types, ∀ before after,
      ds.entering fuel u before = some after → Adds names before after)
    (mem : ∀ u ∈ ts, u ∈ types) (h : ds.enteringAll fuel ts ids = some last) :
    Adds names ids last := by
  induction ts using List.reverseRecOn generalizing last with
  | nil =>
    cases h
    exact .refl names ids
  | append_singleton done u ih =>
    rw [enteringAll_concat] at h
    obtain ⟨before, first, second⟩ := Option.bind_eq_some_iff.1 h
    have earlier := ih (fun v hv => mem v (List.mem_append_left [u] hv)) first
    exact earlier.trans (each u (mem u (by simp)) before last second)

namespace Encloses

variable (closed : ds.Encloses types names)

include closed

lemma opened_adds (mem : t ∈ types) (named : ds.idOf? t = some id) (ids : Finset TypeId) :
    Adds names ids (openedIds ids id t (ds.declarationOf? t)) := by
  rcases openedIds_cases ids id t (ds.declarationOf? t) with opened | opened
  · rw [opened]
    exact (Adds.refl names ids).insert (closed.named t mem id named)
  · rw [opened]
    exact .refl names ids

lemma entering_adds (mem : t ∈ types) (h : ds.entering fuel t ids = some last) :
    Adds names ids last := by
  induction fuel generalizing t ids last with
  | zero => cases h
  | succ fuel ih =>
    obtain ⟨id, named, ⟨_, rfl⟩ | ⟨_, between, inner, rfl⟩⟩ := entering_eq_some h
    · exact .refl names _
    · have inside := enteringAll_adds_of_each (fun u hu _ _ step => ih hu step)
        (closed.inside t mem) inner
      exact ((closed.opened_adds mem named ids).trans inside).insert (closed.named t mem id named)

lemma enteringAll_adds (mem : ∀ u ∈ ts, u ∈ types)
    (h : ds.enteringAll fuel ts ids = some last) : Adds names ids last :=
  enteringAll_adds_of_each (fun _ hu _ _ step => closed.entering_adds hu step) mem h

end Encloses

/-- Registering an annotation takes less fuel than registering another one that it is inside of. -/
def Inner (ds : Declarations) (ids : Finset TypeId) (t v : TypeName) : Prop :=
  ∀ fuel last, ds.entering (fuel + 1) v ids = some last →
    ∃ last', ds.entering fuel t ids = some last'

/-- No annotation is met again inside itself, as long as no id is added. -/
lemma not_inner_self (h : ds.entering fuel t ids = some last) : ¬ ds.Inner ids t t := by
  intro inner
  induction fuel generalizing last with
  | zero => cases h
  | succ fuel ih =>
    obtain ⟨last', less⟩ := inner fuel last h
    exact ih less

lemma Inner.trans {u v : TypeName} (h : ds.Inner ids u t) (h' : ds.Inner ids t v) :
    ds.Inner ids u v := by
  intro fuel last ran
  obtain ⟨between, less⟩ := h' fuel last ran
  cases fuel with
  | zero => cases less
  | succ fuel =>
    obtain ⟨last', least⟩ := h fuel between less
    exact ⟨last', entering_succ least⟩

/-- What is met with the same ids entered is inner. -/
lemma inner_of_inside (named : ds.idOf? t = some id) (new : id ∉ ids) {done rest : List TypeName}
    {u : TypeName} (parts : ds.inside t = done ++ u :: rest)
    (same : ds.enteringAll fuel done (openedIds ids id t (ds.declarationOf? t)) = some ids) :
    ds.Inner ids u t := by
  intro fuel' last ran
  rw [entering_new named new, parts] at ran
  obtain ⟨between, inner, _⟩ := Option.map_eq_some_iff.1 ran
  obtain ⟨before, after, first, second⟩ := enteringAll_split inner
  rw [enteringAll_unique first same] at second
  exact ⟨after, second⟩

/--
With fuel for each annotation that is not around this one, and for all annotations
once for each id that can still be added, a registration that ends comes to its end.
-/
lemma Encloses.entering_of_bound (closed : ds.Encloses types names) {bound : Nat}
    {around : Finset TypeName} (mem : t ∈ types) (inner : ∀ v ∈ around, ds.Inner ids t v)
    (enough : (names \ ids).card * types.card + (types \ around).card ≤ bound)
    (h : ds.entering fuel t ids = some last) : ds.entering bound t ids = some last := by
  induction bound generalizing t ids last around fuel with
  | zero =>
    have outside : t ∉ around := fun h' => not_inner_self h (inner t h')
    have here : 0 < (types \ around).card :=
      Finset.card_pos.2 ⟨t, Finset.mem_sdiff.2 ⟨mem, outside⟩⟩
    omega
  | succ bound ih =>
    have outside : t ∉ around := fun h' => not_inner_self h (inner t h')
    cases fuel with
    | zero => cases h
    | succ fuel =>
      obtain ⟨id, named, ⟨old, rfl⟩ | ⟨new, between, inside, rfl⟩⟩ := entering_eq_some h
      · exact entering_known named old
      · rw [entering_new named new]
        refine Option.map_eq_some_iff.2 ⟨between, ?_, rfl⟩
        apply enteringAll_of_each inside
        intro done u rest parts before after first second
        have closedInside := closed.inside t mem
        rw [parts] at closedInside
        have added : Adds names ids before :=
          (closed.opened_adds mem named ids).trans
            (closed.enteringAll_adds (fun v hv => closedInside v (by simp [hv])) first)
        have less : (types \ insert t around).card < (types \ around).card :=
          card_sdiff_lt (Finset.subset_insert t around) mem outside
            (Finset.mem_insert_self t around)
        by_cases same : before = ids
        · subst same
          have step := inner_of_inside named new parts first
          have around' : ∀ v ∈ insert t around, ds.Inner before u v := by
            intro v hv
            rcases Finset.mem_insert.1 hv with rfl | hv
            · exact step
            · exact step.trans (inner v hv)
          exact ih (closedInside u (by simp)) around' (by omega) second
        · have fewer : (names \ before).card + 1 ≤ (names \ ids).card :=
            added.card_lt fun back => same (Finset.Subset.antisymm back added.1)
          have smaller := Nat.mul_le_mul_right types.card fewer
          rw [Nat.add_mul, Nat.one_mul] at smaller
          have alone : ∀ v ∈ (∅ : Finset TypeName), ds.Inner before u v := by simp
          refine ih (closedInside u (by simp)) alone ?_ second
          rw [Finset.sdiff_empty]
          omega

/-- The annotations of a program and of a contract, with their ids. -/
lemma occurrences_enclosed (ds : Declarations) (c : Contract) :
    ds.Encloses (ds.occurrences c).toFinset ((ds.occurrences c).filterMap ds.idOf?).toFinset where
  inside _ mem _ inside := List.mem_toFinset.2 (inside_occurrences (List.mem_toFinset.1 mem) inside)
  named t mem _ named :=
    List.mem_toFinset.2 (List.mem_filterMap.2 ⟨t, List.mem_toFinset.1 mem, named⟩)

/-- There is fuel for all annotations, once for each id and once more. -/
lemma enough_fuel (ds : Declarations) (c : Contract) (ids : Finset TypeId) :
    (((ds.occurrences c).filterMap ds.idOf?).toFinset \ ids).card *
      (ds.occurrences c).toFinset.card + (ds.occurrences c).toFinset.card ≤
      ds.registrationFuel c := by
  have types : (ds.occurrences c).toFinset.card ≤ ds.annotationCount c := by
    rw [← length_occurrences]
    exact List.toFinset_card_le _
  have names : ((ds.occurrences c).filterMap ds.idOf?).toFinset.card ≤ ds.annotationCount c := by
    rw [← length_occurrences]
    exact (List.toFinset_card_le _).trans (List.length_filterMap_le _ _)
  have left := (Finset.card_le_card (Finset.sdiff_subset : _ \ ids ⊆ _)).trans names
  have rest := Nat.mul_le_mul left types
  rw [registrationFuel, Nat.pow_eq, Nat.pow_two, Nat.add_mul, Nat.mul_add]
  omega

/-- A registration that comes to its end does so with the fuel that extraction gives it. -/
lemma Uses.entering_enough {c : Contract} (used : ds.Uses c t)
    (h : ds.entering fuel t ids = some last) :
    ds.entering (ds.registrationFuel c) t ids = some last := by
  have closed := ds.occurrences_enclosed c
  have alone : ∀ v ∈ (∅ : Finset TypeName), ds.Inner ids t v := by simp
  refine closed.entering_of_bound (List.mem_toFinset.2 used.occurs) alone ?_ h
  rw [Finset.sdiff_empty]
  exact ds.enough_fuel c ids

end Declarations

end UpgradeSafety
