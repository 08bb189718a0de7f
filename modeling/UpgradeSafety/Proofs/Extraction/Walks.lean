import UpgradeSafety.Proofs.Extraction.Annotations

/-!
# Walks over annotations

The order in which registration meets annotations, without the types it enters.
An annotation whose id has been entered already is passed over, and with it what
lies inside. The walk does not stop where registration fails.
-/

namespace UpgradeSafety

/-- What a walk has come across. -/
structure Walk where
  /-- The ids that have been entered. -/
  entered : List TypeId
  met : List TypeName
  /-- The annotations that were passed over when they were met. -/
  passed : List TypeName

namespace Walk

def empty : Walk := ⟨[], [], []⟩

def meet (w : Walk) (t : TypeName) : Walk := { w with met := t :: w.met }

def pass (w : Walk) (t : TypeName) : Walk := { w with passed := t :: w.passed }

def enter (w : Walk) (id : TypeId) : Walk := { w with entered := id :: w.entered }

/-- A struct is entered before its members, and everything else after what lies inside it. -/
def opened (w : Walk) (id : TypeId) : TypeName → Option Declaration → Walk
  | .declared .., some (.struct _) => w.enter id
  | _, _ => w

@[simp] lemma met_opened (w : Walk) (id : TypeId) (t : TypeName) (d : Option Declaration) :
    (w.opened id t d).met = w.met := by
  unfold opened
  split <;> rfl

@[simp] lemma passed_opened (w : Walk) (id : TypeId) (t : TypeName) (d : Option Declaration) :
    (w.opened id t d).passed = w.passed := by
  unfold opened
  split <;> rfl

/-- An annotation that was met gives an id to a declaration. -/
def Refers (ds : Declarations) (w : Walk) (id : TypeId) (node : NodeId) : Prop :=
  ∃ t ∈ w.met, ds.idOf? t = some id ∧ t.declaration? = some node

lemma Refers.mono {ds : Declarations} {w w' : Walk} (more : w.met ⊆ w'.met) {id : TypeId}
    {node : NodeId} (h : w.Refers ds id node) : w'.Refers ds id node := by
  obtain ⟨t, ht, named, refers⟩ := h
  exact ⟨t, more ht, named, refers⟩

/-- Whatever was met or passed over still was. -/
structure Grows (w after : Walk) : Prop where
  met : w.met ⊆ after.met
  passed : w.passed ⊆ after.passed

lemma Grows.refl (w : Walk) : w.Grows w := ⟨fun _ h => h, fun _ h => h⟩

lemma Grows.trans {w between after : Walk} (first : w.Grows between)
    (second : between.Grows after) : w.Grows after :=
  ⟨fun _ h => second.met (first.met h), fun _ h => second.passed (first.passed h)⟩

/-- A walk that has met annotations in use only, and met whatever it passed over. -/
structure Within (uses : TypeName → Prop) (w : Walk) : Prop where
  used : ∀ t ∈ w.met, uses t
  passed : w.passed ⊆ w.met

/-- Nothing else than the open annotations waits for what lies inside it to be met. -/
def Covered (ds : Declarations) (unfinished : List TypeName) (w : Walk) : Prop :=
  ∀ t ∈ w.met, t ∈ unfinished ∨ t ∈ w.passed ∨ ∀ u ∈ ds.inside t, u ∈ w.met

namespace Covered

variable {ds : Declarations} {unfinished : List TypeName} {w : Walk} {t : TypeName}

lemma meet (h : w.Covered ds unfinished) (t : TypeName) :
    (w.meet t).Covered ds (t :: unfinished) := by
  intro u hu
  rcases List.mem_cons.1 hu with rfl | hu
  · exact Or.inl List.mem_cons_self
  · rcases h u hu with waits | passed | inner
    · exact Or.inl (List.mem_cons_of_mem t waits)
    · exact Or.inr (Or.inl passed)
    · exact Or.inr (Or.inr fun v hv => List.mem_cons_of_mem t (inner v hv))

/-- An annotation that is passed over waits for nothing. -/
lemma pass (h : (w.meet t).Covered ds (t :: unfinished)) :
    ((w.meet t).pass t).Covered ds unfinished := by
  intro u hu
  rcases h u hu with waits | passed | inner
  · rcases List.mem_cons.1 waits with rfl | waits
    · exact Or.inr (Or.inl List.mem_cons_self)
    · exact Or.inl waits
  · exact Or.inr (Or.inl (List.mem_cons_of_mem t passed))
  · exact Or.inr (Or.inr inner)

/-- An annotation is finished when what lies inside it has been met. -/
lemma finish (h : w.Covered ds (t :: unfinished)) (inner : ∀ u ∈ ds.inside t, u ∈ w.met) :
    w.Covered ds unfinished := by
  intro u hu
  rcases h u hu with waits | covered
  · rcases List.mem_cons.1 waits with rfl | waits
    · exact Or.inr (Or.inr inner)
    · exact Or.inl waits
  · exact Or.inr covered

lemma opened (h : w.Covered ds unfinished) (id : TypeId) (t : TypeName)
    (d : Option Declaration) : (w.opened id t d).Covered ds unfinished := by
  rw [Covered]
  rw [met_opened, passed_opened]
  exact h

end Covered

end Walk

namespace Declarations

variable {ds : Declarations}

/-- Visits an annotation and what lies inside it. -/
def visit (ds : Declarations) : Nat → TypeName → Walk → Walk
  | 0, _, w => w
  | fuel + 1, t, w =>
    match ds.idOf? t with
    | none => w
    | some id =>
      if id ∈ w.entered then (w.meet t).pass t
      else
        ((ds.inside t).foldl (fun w u => ds.visit fuel u w)
          ((w.meet t).opened id t (ds.declarationOf? t))).enter id

/-- Visits annotations one after another. -/
def visitAll (ds : Declarations) (fuel : Nat) (ts : List TypeName) (w : Walk) : Walk :=
  ts.foldl (fun w t => ds.visit fuel t w) w

@[simp] lemma visitAll_cons (fuel : Nat) (t : TypeName) (ts : List TypeName) (w : Walk) :
    ds.visitAll fuel (t :: ts) w = ds.visitAll fuel ts (ds.visit fuel t w) := rfl

lemma visitAll_append (fuel : Nat) (ts us : List TypeName) (w : Walk) :
    ds.visitAll fuel (ts ++ us) w = ds.visitAll fuel us (ds.visitAll fuel ts w) :=
  List.foldl_append

lemma visit_passed {fuel : Nat} {t : TypeName} {w : Walk} {id : TypeId}
    (named : ds.idOf? t = some id) (old : id ∈ w.entered) :
    ds.visit (fuel + 1) t w = (w.meet t).pass t := by
  simp only [visit, named, if_pos old]

lemma visit_entered {fuel : Nat} {t : TypeName} {w : Walk} {id : TypeId}
    (named : ds.idOf? t = some id) (new : id ∉ w.entered) :
    ds.visit (fuel + 1) t w =
      (ds.visitAll fuel (ds.inside t) ((w.meet t).opened id t (ds.declarationOf? t))).enter id := by
  simp only [visit, named, if_neg new]
  rfl

lemma visitAll_grows {fuel : Nat} (each : ∀ t (w : Walk), w.Grows (ds.visit fuel t w))
    (ts : List TypeName) (w : Walk) : w.Grows (ds.visitAll fuel ts w) := by
  induction ts generalizing w with
  | nil => exact .refl w
  | cons t ts ih => exact (each t w).trans (ih (ds.visit fuel t w))

lemma visit_grows (ds : Declarations) (fuel : Nat) (t : TypeName) (w : Walk) :
    w.Grows (ds.visit fuel t w) := by
  induction fuel generalizing t w with
  | zero => exact .refl w
  | succ fuel ih =>
    cases named : ds.idOf? t with
    | none =>
      simp only [visit, named]
      exact .refl w
    | some id =>
      by_cases old : id ∈ w.entered
      · rw [visit_passed named old]
        exact ⟨List.subset_cons_self t w.met, List.subset_cons_self t w.passed⟩
      · rw [visit_entered named old]
        have inner : ((w.meet t).opened id t (ds.declarationOf? t)).Grows (ds.visitAll fuel
            (ds.inside t) ((w.meet t).opened id t (ds.declarationOf? t))) :=
          visitAll_grows ih _ _
        constructor
        · intro u hu
          apply inner.met
          rw [Walk.met_opened]
          exact List.mem_cons_of_mem t hu
        · intro u hu
          apply inner.passed
          rw [Walk.passed_opened]
          exact hu

/-- An annotation with an id is met when it is visited. -/
lemma mem_met_visit (fuel : Nat) {t : TypeName} (w : Walk) {id : TypeId}
    (named : ds.idOf? t = some id) : t ∈ (ds.visit (fuel + 1) t w).met := by
  by_cases old : id ∈ w.entered
  · rw [visit_passed named old]
    exact List.mem_cons_self
  · rw [visit_entered named old]
    apply (visitAll_grows (visit_grows ds fuel) _ _).met
    rw [Walk.met_opened]
    exact List.mem_cons_self

lemma visitAll_within {uses : TypeName → Prop} {fuel : Nat}
    (each : ∀ t (w : Walk), uses t → w.Within uses → (ds.visit fuel t w).Within uses)
    (ts : List TypeName) (used : ∀ t ∈ ts, uses t) {w : Walk} (h : w.Within uses) :
    (ds.visitAll fuel ts w).Within uses := by
  induction ts generalizing w with
  | nil => exact h
  | cons t ts ih =>
    exact ih (fun u hu => used u (List.mem_cons_of_mem t hu))
      (each t w (used t List.mem_cons_self) h)

lemma visit_within {uses : TypeName → Prop} (closed : ∀ t, uses t → ∀ u ∈ ds.inside t, uses u)
    (fuel : Nat) (t : TypeName) (w : Walk) (used : uses t) (h : w.Within uses) :
    (ds.visit fuel t w).Within uses := by
  induction fuel generalizing t w with
  | zero => exact h
  | succ fuel ih =>
    have met : ∀ u ∈ (w.meet t).met, uses u := by
      intro u hu
      rcases List.mem_cons.1 hu with rfl | hu
      · exact used
      · exact h.used u hu
    have passed : (w.meet t).passed ⊆ (w.meet t).met := fun _ hu =>
      List.mem_cons_of_mem t (h.passed hu)
    cases named : ds.idOf? t with
    | none =>
      simp only [visit, named]
      exact h
    | some id =>
      by_cases old : id ∈ w.entered
      · rw [visit_passed named old]
        constructor
        · exact met
        · intro u hu
          rcases List.mem_cons.1 hu with rfl | hu
          · exact List.mem_cons_self
          · exact passed hu
      · rw [visit_entered named old]
        have start : ((w.meet t).opened id t (ds.declarationOf? t)).Within uses := by
          constructor
          · rw [Walk.met_opened]
            exact met
          · rw [Walk.met_opened, Walk.passed_opened]
            exact passed
        have inner := visitAll_within ih (ds.inside t) (closed t used) start
        exact ⟨inner.used, inner.passed⟩

/-- The walk over the storage variables of a contract; none without its bases. -/
def walk (ds : Declarations) (c : Contract) : Walk :=
  match ds.lineage c with
  | .ok bases =>
    ds.visitAll (ds.registrationFuel c) ((Extraction.variablesOf bases).map (·.2.type)) .empty
  | .error _ => .empty

/-- The annotations inside an annotation, at any depth. -/
inductive Beneath (ds : Declarations) (t : TypeName) : TypeName → Prop where
  | direct {u : TypeName} (mem : u ∈ ds.inside t) : Beneath ds t u
  | deeper {u v : TypeName} (outer : Beneath ds t u) (mem : v ∈ ds.inside u) : Beneath ds t v

lemma Beneath.uses {c : Contract} {t u : TypeName} (h : ds.Beneath t u) (used : ds.Uses c t) :
    ds.Uses c u := by
  induction h with
  | direct mem => exact .inside used mem
  | deeper _ mem ih => exact .inside ih mem

lemma walk_within (ds : Declarations) (c : Contract) : (ds.walk c).Within (ds.Uses c) := by
  have start : Walk.empty.Within (ds.Uses c) := ⟨by simp [Walk.empty], by simp [Walk.empty]⟩
  rw [walk]
  cases lineage : ds.lineage c with
  | error cause => exact start
  | ok bases =>
    refine visitAll_within (visit_within uses_closed _) _ (fun t ht => ?_) start
    obtain ⟨v, hv, rfl⟩ := List.mem_map.1 ht
    exact uses_variable lineage v hv

end Declarations

end UpgradeSafety
