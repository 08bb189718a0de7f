import UpgradeSafety.Proofs.Compilation.Occurrences
import UpgradeSafety.Proofs.Extraction.Layouts
import UpgradeSafety.Proofs.Extraction.Walks

/-!
# Where the ids of declared types come from

Registration makes sure that the annotations it meets give an id to one
declaration only. It meets every annotation in use but those inside one that was
passed over, so an extraction may only merge declarations that are met inside
types of an id entered before.
-/

namespace UpgradeSafety

/-- The types met so far are those that a walk has entered, from the declarations it has met. -/
structure Tracks (ds : Declarations) (w : Walk) (k : KnownTypes) : Prop where
  entered : ∀ id, (∃ item, k.types.find? id = some item) ↔ id ∈ w.entered
  origins : ∀ id node, k.origins.find? id = some node ↔ w.Refers ds id node

/-- An error about ambiguous declarations is explained by what a walk has met. -/
def Explains (ds : Declarations) (w : Walk) (cause : ResolutionError) : Prop :=
  ∀ id first second, cause = .ambiguousTypeId id first second →
    first ≠ second ∧ w.Refers ds id first ∧ w.Refers ds id second

section

variable {ds : Declarations} {w : Walk} {k : KnownTypes} {t : TypeName} {id : TypeId}

lemma Explains.mono {after : Walk} {cause : ResolutionError} (h : Explains ds w cause)
    (more : w.met ⊆ after.met) : Explains ds after cause := by
  intro id first second hc
  obtain ⟨differ, refers, refers'⟩ := h id first second hc
  exact ⟨differ, refers.mono more, refers'.mono more⟩

namespace Tracks

lemma empty : Tracks ds .empty .empty where
  entered id := by simp [KnownTypes.empty, Walk.empty]
  origins id node := by simp [KnownTypes.empty, Walk.empty, Walk.Refers]

lemma pass (h : Tracks ds w k) (t : TypeName) : Tracks ds (w.pass t) k :=
  ⟨h.entered, h.origins⟩

/-- Annotations that were met and have one id refer to one declaration. -/
lemma unique (h : Tracks ds w k) {first second : NodeId} (refers : w.Refers ds id first)
    (refers' : w.Refers ds id second) : first = second :=
  Option.some.inj (((h.origins id first).2 refers).symm.trans ((h.origins id second).2 refers'))

end Tracks

namespace Walk

lemma refers_meet (named : ds.idOf? t = some id) (x : TypeId) (node : NodeId) :
    (w.meet t).Refers ds x node ↔
      (x = id ∧ t.declaration? = some node) ∨ w.Refers ds x node := by
  constructor
  · rintro ⟨u, hu, named', refers⟩
    rcases List.mem_cons.1 hu with rfl | hu
    · exact Or.inl ⟨Option.some.inj (named'.symm.trans named), refers⟩
    · exact Or.inr ⟨u, hu, named', refers⟩
  · rintro (⟨rfl, refers⟩ | ⟨u, hu, named', refers⟩)
    · exact ⟨t, List.mem_cons_self, named, refers⟩
    · exact ⟨u, List.mem_cons_of_mem t hu, named', refers⟩

end Walk

namespace Tracks

lemma meet_unnamed (h : Tracks ds w k) (named : ds.idOf? t = some id)
    (unnamed : t.declaration? = none) : Tracks ds (w.meet t) k where
  entered := h.entered
  origins x node := by
    rw [h.origins, Walk.refers_meet named, unnamed]
    simp

lemma meet_again (h : Tracks ds w k) (named : ds.idOf? t = some id) {node : NodeId}
    (refers : t.declaration? = some node) (origin : k.origins.find? id = some node) :
    Tracks ds (w.meet t) k where
  entered := h.entered
  origins x other := by
    rw [h.origins, Walk.refers_meet named]
    constructor
    · exact Or.inr
    · rintro (⟨rfl, same⟩ | old)
      · exact Option.some.inj (refers.symm.trans same) ▸ (h.origins x node).1 origin
      · exact old

lemma meet_first (h : Tracks ds w k) (named : ds.idOf? t = some id) {node : NodeId}
    (refers : t.declaration? = some node) (fresh : k.origins.find? id = none) :
    Tracks ds (w.meet t) (k.putOrigin id node) where
  entered := h.entered
  origins x other := by
    rw [Walk.refers_meet named, ← h.origins]
    change (k.origins.insert id node).find? x = some other ↔ _
    rw [Table.find?_insert]
    by_cases same : x = id
    · rw [if_pos same, same, fresh, refers]
      simp
    · rw [if_neg same]
      simp [same]

/-- A type is entered by the walk and among the types met so far at the same time. -/
lemma enter (h : Tracks ds w k) (id : TypeId) (label : String) (kind : TypeKind) :
    Tracks ds (w.enter id) (k.putType id label kind) where
  entered x := by
    change (∃ item, (k.types.insert id _).find? x = some item) ↔ x ∈ id :: w.entered
    rw [List.mem_cons, ← h.entered, Table.find?_insert]
    by_cases same : x = id
    · simp [same]
    · simp [same]
  origins := h.origins

lemma opened (h : Tracks ds w k) (id : TypeId) (label : String) (t : TypeName)
    (d : Option Declaration) :
    Tracks ds (w.opened id t d) (Registration.opened id label k t d) := by
  cases t with
  | declared i node name desc =>
    cases d with
    | none => exact h
    | some d =>
      cases d with
      | struct s => exact h.enter id label _
      | _ => exact h
  | _ => exact h

end Tracks

/-- The types met so far are those of a walk that has met what lies inside what it has met. -/
structure Follows (ds : Declarations) (unfinished : List TypeName) (w : Walk) (k : KnownTypes) :
    Prop where
  tracks : Tracks ds w k
  covered : w.Covered ds unfinished

namespace Registration

open Registering

variable {unfinished : List TypeName}

/-- What a new annotation is described by has been visited by the walk. -/
lemma describe_follows {fuel : Nat}
    (each : ∀ u w unfinished k, Follows ds unfinished w k →
      Leads (register ds fuel u) k
        (fun _ after => Follows ds unfinished (ds.visit fuel u w) after ∧
          u ∈ (ds.visit fuel u w).met)
        (Explains ds (ds.visit fuel u w)))
    (label : String) (h : Follows ds (t :: unfinished) w k) :
    Leads (describe (register ds fuel) id label t (ds.declarationOf? t)) k
      (fun described last => Follows ds unfinished
        ((ds.visitAll fuel (ds.inside t) (w.opened id t (ds.declarationOf? t))).enter id)
        ((last.putType id label described.1).putSizeRule id described.2))
      (Explains ds
        (ds.visitAll fuel (ds.inside t) (w.opened id t (ds.declarationOf? t)))) := by
  have begun : Follows ds (t :: unfinished) (w.opened id t (ds.declarationOf? t))
      (opened id label k t (ds.declarationOf? t)) :=
    ⟨h.tracks.opened id label t _, h.covered.opened id t _⟩
  generalize w.opened id t (ds.declarationOf? t) = start at begun ⊢
  refine Leads.mono (leads_describe (register ds fuel)
    (fun done _ after => Follows ds (t :: unfinished) (ds.visitAll fuel done start) after ∧
      ∀ u ∈ done, u ∈ (ds.visitAll fuel done start).met)
    (fun done u rest whole ids after h => ?_) (fun x => ?_) ⟨begun, by simp⟩)
    (fun described last h => ?_) (fun _ hf => hf)
  · obtain ⟨follows, met⟩ := h
    have grows := Declarations.visit_grows ds fuel u (ds.visitAll fuel done start)
    have step : ds.visitAll fuel (done ++ [u]) start =
        ds.visit fuel u (ds.visitAll fuel done start) := by
      rw [Declarations.visitAll_append]
      rfl
    rw [step]
    refine (each u _ _ after follows).mono (fun _ last h => ⟨h.1, fun v hv => ?_⟩)
      (fun cause hf => hf.mono ?_)
    · rcases List.mem_append.1 hv with hv | hv
      · exact grows.met (met v hv)
      · rw [List.mem_singleton.1 hv]
        exact h.2
    · -- What is met inside `u` is met inside `t`.
      have parts : ds.inside t = (done ++ [u]) ++ rest := by
        rw [Declarations.inside, whole]
        simp
      rw [parts, Declarations.visitAll_append, step]
      exact (Declarations.visitAll_grows (Declarations.visit_grows ds fuel) rest _).met
  · intro x first second hc
    cases hc
  · obtain ⟨ids, ⟨follows, met⟩, _⟩ := h
    have entered := follows.tracks.enter id label described.1
    exact ⟨⟨entered.entered, entered.origins⟩, follows.covered.finish met⟩

/-- Registration goes along with the walk. -/
lemma register_follows (fuel : Nat) (t : TypeName) {w : Walk} {k : KnownTypes}
    (h : Follows ds unfinished w k) :
    Leads (register ds fuel t) k
      (fun _ after => Follows ds unfinished (ds.visit fuel t w) after ∧
        t ∈ (ds.visit fuel t w).met)
      (Explains ds (ds.visit fuel t w)) := by
  induction fuel generalizing t unfinished w k with
  | zero => exact fun _ _ _ hc => nomatch hc
  | succ fuel ih =>
    refine leads_register (fun _ _ _ _ hc => nomatch hc) fun id named => ?_
    have grows := Declarations.visit_grows ds (fuel + 1) t w
    have met := Declarations.mem_met_visit fuel w named
    have recorded : ∀ after, Tracks ds (w.meet t) after →
        (after.types.contains id = true →
          Follows ds unfinished (ds.visit (fuel + 1) t w) after ∧
            t ∈ (ds.visit (fuel + 1) t w).met) ∧
        (after.types.contains id = false →
          Leads (describe (register ds fuel) id (t.description.text.getD id) t
            (ds.declarationOf? t)) after
            (fun described last => Follows ds unfinished (ds.visit (fuel + 1) t w)
              ((last.putType id (t.description.text.getD id) described.1).putSizeRule id
                described.2) ∧ t ∈ (ds.visit (fuel + 1) t w).met)
            (Explains ds (ds.visit (fuel + 1) t w))) := by
      intro after tracks
      have covered := h.covered.meet t
      constructor
      · intro known
        have old : id ∈ w.entered := (tracks.entered id).1 (Table.contains_iff.1 known)
        refine ⟨?_, met⟩
        rw [Declarations.visit_passed named old]
        exact ⟨tracks.pass t, covered.pass⟩
      · intro unknown
        have new : id ∉ w.entered := by
          intro old
          rw [Table.contains_iff.2 ((tracks.entered id).2 old)] at unknown
          cases unknown
        rw [Declarations.visit_entered named new] at met ⊢
        refine Leads.imp (describe_follows (fun u _ _ _ h => ih u h) _ ⟨tracks, covered⟩) ?_
        intro described last follows
        exact ⟨follows, met⟩
    refine leads_declarationOf? (fun unnamed => ?_) (fun _ _ _ _ hc => nomatch hc)
      (fun node refers fresh => ?_) (fun node refers origin => ?_)
      (fun node other refers origin differs => ?_)
    · exact recorded k (h.tracks.meet_unnamed named unnamed)
    · exact recorded _ (h.tracks.meet_first named refers fresh)
    · exact recorded k (h.tracks.meet_again named refers origin)
    · intro x first second hc
      cases hc
      exact ⟨differs, ((h.tracks.origins id other).1 origin).mono grows.met,
        ⟨t, met, named, refers⟩⟩

end Registration

lemma Follows.sizesMore {unfinished : List TypeName} {after : KnownTypes}
    (h : Follows ds unfinished w k) (more : SizesMore k after) :
    Follows ds unfinished w after where
  covered := h.covered
  tracks :=
    { entered := fun id => by
        rw [← h.tracks.entered]
        constructor
        · rintro ⟨item, found⟩
          obtain ⟨before, found, _⟩ := more.item_of_after found
          exact ⟨before, found⟩
        · rintro ⟨item, found⟩
          obtain ⟨later, found, _⟩ := more.item_of_before found
          exact ⟨later, found⟩
      origins := fun id node => by rw [more.origins, h.tracks.origins] }

/-- An error about the size of a type is no error about ambiguous declarations. -/
lemma explains_of_concernsSize {cause : ResolutionError} (h : cause.concernsSize = true) :
    Explains ds w cause := by
  rintro id first second rfl
  cases h

/-- An error about what a node is is no error about ambiguous declarations. -/
lemma explains_of_concernsNode {cause : ResolutionError} (h : cause.concernsNode = true) :
    Explains ds w cause := by
  rintro id first second rfl
  cases h

namespace Extraction

open Registering

variable {c : Contract} {decode : String → String}

lemma placeVariable_follows {v : Variable} (used : ds.Uses c v.type) (fuel : Nat)
    (free : Position) (settled : Settled ds c k) (h : Follows ds [] w k) :
    Leads (placeVariable ds fuel v free) k
      (fun _ after => Settled ds c after ∧ Follows ds [] (ds.visit fuel v.type w) after ∧
        v.type ∈ (ds.visit fuel v.type w).met)
      (Explains ds (ds.visit fuel v.type w)) := by
  rw [placeVariable]
  simp only [leads_bind]
  have left := Registration.register_leaves Declarations.uses_closed fuel used settled.described
  have registered := left.and (Registration.register_follows fuel v.type h)
  refine registered.mono (fun id between left => ?_) (fun _ hf => hf.2)
  obtain ⟨left, follows, met⟩ := left
  have sized := settled.sized.keeps settled.described left.keeps
  refine (Sizing.footprint_finds id sized).mono (fun f after h => ?_)
    (fun _ hf => explains_of_concernsSize hf)
  cases place : free.place f with
  | mk start next =>
    cases start with
    | none => exact explains_of_concernsSize rfl
    | some start =>
      exact ⟨⟨left.described.sizesMore h.more, h.sized⟩, follows.sizesMore h.more, met⟩

/-- Laying out variables goes along with the walk over their types. -/
lemma addVariables_follows (decode : String → String) (fuel : Nat)
    {vs : List (Contract × Variable)} (used : ∀ v ∈ vs, ds.Uses c v.2.type) {p : Progress}
    (settled : Settled ds c p.known) (h : Follows ds [] w p.known) :
    match addVariables ds decode fuel vs p with
    | .ok p' => Settled ds c p'.known ∧
        Follows ds [] (ds.visitAll fuel (vs.map (·.2.type)) w) p'.known ∧
        ∀ v ∈ vs, v.2.type ∈ (ds.visitAll fuel (vs.map (·.2.type)) w).met
    | .error e => Explains ds (ds.visitAll fuel (vs.map (·.2.type)) w) e.cause := by
  induction vs generalizing p w with
  | nil => exact ⟨settled, h, by simp⟩
  | cons first vs ih =>
    obtain ⟨base, v⟩ := first
    have step := placeVariable_follows (used _ List.mem_cons_self) fuel p.free settled h
    have grows := Declarations.visitAll_grows (Declarations.visit_grows ds fuel)
      (vs.map (·.2.type)) (ds.visit fuel v.type w)
    rw [List.map_cons, Declarations.visitAll_cons]
    rcases addVariable_eq ds decode fuel p base v with
      ⟨placed, known, placing, added⟩ | ⟨cause, failing, failed⟩
    · obtain ⟨settled, follows, met⟩ := leads_of_ok step placing
      have rest := ih (fun u hu => used u (List.mem_cons_of_mem _ hu))
        (p := p.after decode base v placed known) settled follows
      rw [addVariables_cons_ok added]
      cases others : addVariables ds decode fuel vs (p.after decode base v placed known) with
      | error e =>
        rw [others] at rest
        exact rest
      | ok p' =>
        rw [others] at rest
        obtain ⟨settled, follows, others⟩ := rest
        refine ⟨settled, follows, fun u hu => ?_⟩
        rcases List.mem_cons.1 hu with rfl | hu
        · exact grows.met met
        · exact others u hu
    · rw [addVariables_cons_error failed]
      exact (leads_of_error step failing).mono grows.met

/-- An extraction goes along with the walk over a contract's variables. -/
lemma layout_follows (ds : Declarations) (decode : String → String) (c : Contract) :
    match layout ds decode c with
    | .ok _ => (∃ k, Follows ds [] (ds.walk c) k) ∧
        ∀ bases, ds.lineage c = .ok bases → ∀ v ∈ variablesOf bases,
          v.2.type ∈ (ds.walk c).met
    | .error e => Explains ds (ds.walk c) e.cause := by
  rw [layout_eq]
  cases lineage : ds.lineage c with
  | error cause => exact explains_of_concernsNode (Declarations.lineage_error lineage)
  | ok bases =>
    have start : Settled ds c Progress.start.known := ⟨.empty, .empty⟩
    have covered : Walk.empty.Covered ds [] := by simp [Walk.Covered, Walk.empty]
    have run := addVariables_follows decode (ds.registrationFuel c)
      (Declarations.uses_variable lineage) start ⟨.empty, covered⟩
    have walked : ds.walk c = ds.visitAll (ds.registrationFuel c)
        ((variablesOf bases).map (·.2.type)) .empty := by
      simp only [Declarations.walk, lineage]
    rw [← walked] at run
    simp only
    cases placed : addVariables ds decode (ds.registrationFuel c) (variablesOf bases) .start with
    | error e =>
      rw [placed] at run
      exact run
    | ok p =>
      rw [placed] at run
      obtain ⟨settled, follows, met⟩ := run
      have sizing := Sizing.sizeAll_finds p.known.withoutSize settled.sized
      cases sized : (Sizing.sizeAll p.known.withoutSize).run p.known with
      | error cause =>
        simp only [sized]
        exact explains_of_concernsSize (leads_of_error sizing sized)
      | ok result =>
        simp only [sized]
        refine ⟨⟨p.known, follows⟩, fun bases' same v hv => ?_⟩
        cases same
        exact met v hv

end Extraction

namespace Declarations

/-- Two annotations with one id refer to one declaration, if they refer to any. -/
def Agree (ds : Declarations) (t u : TypeName) : Prop :=
  ∀ id first second, ds.idOf? t = some id → ds.idOf? u = some id →
    t.declaration? = some first → u.declaration? = some second → first = second

end Declarations

open Extraction

variable {c : Contract} {decode : String → String}

/-- In a successful extraction, annotations in use are met or lie inside one passed over. -/
lemma met_or_beneath_passed {l : Layout} (ran : layout ds decode c = .ok l)
    (used : ds.Uses c t) :
    t ∈ (ds.walk c).met ∨ ∃ p ∈ (ds.walk c).passed, ds.Beneath p t := by
  have run := layout_follows ds decode c
  rw [ran] at run
  obtain ⟨⟨k, follows⟩, roots⟩ := run
  induction used with
  | stored lineage mem =>
    obtain ⟨v, hv, rfl⟩ := List.mem_map.1 mem
    exact Or.inl (roots _ lineage v hv)
  | @inside t u _ mem ih =>
    rcases ih with met | ⟨p, hp, beneath⟩
    · rcases follows.covered t met with waits | passed | inner
      · cases waits
      · exact Or.inr ⟨t, passed, .direct mem⟩
      · exact Or.inl (inner u mem)
    · exact Or.inr ⟨p, hp, .deeper beneath mem⟩

/-- An error about ambiguous declarations names two that are in use under the id. -/
lemma ambiguous_declarations {e : ExtractionError} (failed : layout ds decode c = .error e)
    {first second : NodeId} (ambiguous : e.cause = .ambiguousTypeId id first second) :
    first ≠ second ∧ ∃ t u, ds.Uses c t ∧ ds.Uses c u ∧
      ds.idOf? t = some id ∧ ds.idOf? u = some id ∧
      t.declaration? = some first ∧ u.declaration? = some second := by
  have run := layout_follows ds decode c
  rw [failed] at run
  obtain ⟨differ, ⟨t, ht, named, refers⟩, ⟨u, hu, named', refers'⟩⟩ :=
    run id first second ambiguous
  have within := Declarations.walk_within ds c
  exact ⟨differ, t, u, within.used t ht, within.used u hu, named, named', refers, refers'⟩

/--
A successful extraction has told apart all declarations in use exactly if no
annotation inside one that was passed over refers to another declaration under
an id in use.
-/
theorem declarations_told_apart_iff {l : Layout} (ran : layout ds decode c = .ok l) :
    (∀ t u, ds.Uses c t → ds.Uses c u → ds.Agree t u) ↔
      ∀ p ∈ (ds.walk c).passed, ∀ t, ds.Beneath p t → ∀ u, ds.Uses c u → ds.Agree t u := by
  have within := Declarations.walk_within ds c
  constructor
  · intro agree p hp t beneath u used
    exact agree t u (beneath.uses (within.used p (within.passed hp))) used
  · intro agree t u used used' id first second named named' refers refers'
    rcases met_or_beneath_passed ran used with met | ⟨p, hp, beneath⟩
    · rcases met_or_beneath_passed ran used' with met' | ⟨p, hp, beneath⟩
      · have run := layout_follows ds decode c
        rw [ran] at run
        obtain ⟨⟨k, follows⟩, _⟩ := run
        exact follows.tracks.unique ⟨t, met, named, refers⟩ ⟨u, met', named', refers'⟩
      · exact (agree p hp u beneath t used id second first named' named refers' refers).symm
    · exact agree p hp t beneath u used' id first second named named' refers refers'

end

/-! ## Two structs of one name -/

open Extraction

def dataOfOneMember : StructDefinition :=
  ⟨3, "Data", some "Data", [plainVariable 2 "value" (elementaryType 1 "uint256")], ""⟩

def dataOfTwoMembers : StructDefinition :=
  ⟨13, "Data", some "Data", [plainVariable 12 "first" (elementaryType 11 "uint256"),
    plainVariable 14 "second" (elementaryType 15 "uint256")], ""⟩

/-- An annotation that names the struct declared at a node. -/
def dataType (id : NodeId) (node : Nat) : TypeName :=
  .declared id node (some "Data")
    ⟨some ("t_struct$_Data_$" ++ Numeral.write node ++ "_storage_ptr"), some "struct Data"⟩

/-- An annotation of an array of two such structs. -/
def dataPairType (id : NodeId) (element : TypeName) (node : Nat) : TypeName :=
  .array id element
    ⟨some ("t_array$_t_struct$_Data_$" ++ Numeral.write node ++ "_storage_$2_storage"),
      some "struct Data[2]"⟩

/-- A contract that keeps two arrays, one of each struct. -/
def bothContract : Contract :=
  ⟨30, "Both", [30],
    [.variable (plainVariable 24 "first" (dataPairType 21 (dataType 20 3) 3)),
      .variable (plainVariable 25 "second" (dataPairType 23 (dataType 22 13) 13))], ""⟩

def bothProgram : Declarations :=
  ⟨[.struct dataOfOneMember, .struct dataOfTwoMembers, .contract bothContract]⟩

lemma bothProgram_layout : ∃ l, layout bothProgram id bothContract = .ok l := by
  obtain ⟨l, ran, _⟩ := layout_of_check (layout bothProgram id bothContract) (fun _ => true)
    (by decide +kernel)
  exact ⟨l, ran⟩

theorem bothProgram_told_apart_iff :
    ∃ l, layout bothProgram id bothContract = .ok l ∧
      ((∀ t u, bothProgram.Uses bothContract t → bothProgram.Uses bothContract u →
        bothProgram.Agree t u) ↔
      ∀ p ∈ (bothProgram.walk bothContract).passed, ∀ t, bothProgram.Beneath p t →
        ∀ u, bothProgram.Uses bothContract u → bothProgram.Agree t u) := by
  obtain ⟨l, ran⟩ := bothProgram_layout
  exact ⟨l, ran, declarations_told_apart_iff ran⟩

/-- The second array is passed over, and its struct is taken for that of the first one. -/
theorem bothProgram_merges :
    ∃ l, layout bothProgram id bothContract = .ok l ∧
      bothProgram.Uses bothContract (dataType 20 3) ∧
      bothProgram.Uses bothContract (dataType 22 13) ∧
      bothProgram.idOf? (dataType 20 3) = some "t_struct(Data)storage" ∧
      bothProgram.idOf? (dataType 22 13) = some "t_struct(Data)storage" ∧
      ¬ bothProgram.Agree (dataType 20 3) (dataType 22 13) := by
  obtain ⟨l, ran⟩ := bothProgram_layout
  have lineage : bothProgram.lineage bothContract = .ok [bothContract] := rfl
  have first : bothProgram.Uses bothContract (dataPairType 21 (dataType 20 3) 3) :=
    .stored (v := plainVariable 24 "first" (dataPairType 21 (dataType 20 3) 3)) lineage
      (by decide +kernel)
  have second : bothProgram.Uses bothContract (dataPairType 23 (dataType 22 13) 13) :=
    .stored (v := plainVariable 25 "second" (dataPairType 23 (dataType 22 13) 13)) lineage
      (by decide +kernel)
  have name : bothProgram.idOf? (dataType 20 3) = some "t_struct(Data)storage" := by
    decide +kernel
  have name' : bothProgram.idOf? (dataType 22 13) = some "t_struct(Data)storage" := by
    decide +kernel
  refine ⟨l, ran, .inside first List.mem_cons_self, .inside second List.mem_cons_self, name,
    name', fun agree => ?_⟩
  have same : (3 : NodeId) = 13 := agree _ 3 13 name name' rfl rfl
  exact absurd same (by decide)

end UpgradeSafety
