import UpgradeSafety.Proofs.Extraction.Sized

/-!
# What an extracted layout says

Every type of an extracted layout is accounted for by an annotation in use and has
the size that follows from the size rules, and the storage items stand one after
another from the first byte of storage on.
-/

namespace UpgradeSafety

/-- Items with the given footprints stand one after another, the first one at a free position. -/
inductive Placed : Position → List StorageItem → List Footprint → Prop where
  | nil {free : Position} : Placed free [] []
  | cons {free next : Position} {item : StorageItem} {f : Footprint} {items : List StorageItem}
      {fs : List Footprint} (place : free.place f = (some ⟨item.slot, item.offset⟩, next))
      (rest : Placed next items fs) : Placed free (item :: items) (f :: fs)

namespace Placed

variable {free : Position} {items items' : List StorageItem} {fs fs' : List Footprint}

lemma length_eq (placed : Placed free items fs) : items.length = fs.length := by
  induction placed with
  | nil => rfl
  | cons _ _ ih => rw [List.length_cons, List.length_cons, ih]

/-- Items stand where items of the same footprints stand. -/
lemma agree (placed : Placed free items fs) (placed' : Placed free items' fs')
    (same : ∀ (i : Nat) (f g : Footprint), fs[i]? = some f → fs'[i]? = some g → f = g)
    {i : Nat} {a b : StorageItem} (ha : items[i]? = some a) (hb : items'[i]? = some b) :
    a.slot = b.slot ∧ a.offset = b.offset := by
  induction placed generalizing items' fs' i with
  | nil => simp at ha
  | @cons free next item f items fs place rest ih =>
    cases placed' with
    | nil => simp at hb
    | @cons _ next' item' g items' fs' place' rest' =>
      have first : f = g := same 0 f g rfl rfl
      rw [← first, place] at place'
      obtain ⟨start, following⟩ := Prod.mk.inj place'
      cases i with
      | zero =>
        cases ha
        cases hb
        have position := Option.some.inj start
        exact ⟨congrArg Position.slot position, congrArg Position.offset position⟩
      | succ i =>
        refine ih (following ▸ rest') (fun j f g hf hg => same (j + 1) f g hf hg) ha hb

end Placed

/-- What is known of a layout that was extracted for a contract. -/
structure Extracted (ds : Declarations) (c : Contract) (l : Layout) (rules : Table SizeRule)
    (fs : List Footprint) : Prop where
  accounted : ∀ {id item}, l.type? id = some item →
    ∃ rule, rules.find? id = some rule ∧ Accounts ds (ds.Uses c) l.types id item.kind rule
  entered : ∀ {id rule}, rules.find? id = some rule → ∃ item, l.type? id = some item
  sized : ∀ {id item}, l.type? id = some item →
    ∃ f, HasFootprint rules id f ∧ item.numberOfBytes = f.bytes
  placed : Placed .origin l.storage fs
  stored : ∀ p ∈ l.storage.zip fs, HasFootprint rules p.1.type p.2 ∧
    ∃ item, l.type? p.1.type = some item ∧ item.numberOfBytes = p.2.bytes

namespace Extraction

open Registering

/-- What holds of the types met so far between two variables. -/
structure Settled (ds : Declarations) (c : Contract) (k : KnownTypes) : Prop where
  described : Described ds (ds.Uses c) (fun _ => False) k
  sized : Sized k

variable {ds : Declarations} {c : Contract} {decode : String → String}

lemma placeVariable_settled {v : Variable} (used : ds.Uses c v.type) (fuel : Nat)
    (free : Position) {k : KnownTypes} (settled : Settled ds c k) :
    Leads (placeVariable ds fuel v free) k
      (fun placed after => Settled ds c after ∧
        (∀ {id f}, k.footprints.find? id = some f → after.footprints.find? id = some f) ∧
        ∃ f, after.footprints.find? placed.1 = some f ∧
          free.place f = (some placed.2.1, placed.2.2)) (fun _ => True) := by
  rw [placeVariable]
  simp only [leads_bind]
  have registered := Registration.register_leaves Declarations.uses_closed fuel used
    settled.described
  refine registered.imp fun id between left => ?_
  have sized := settled.sized.keeps settled.described left.keeps
  refine (Sizing.footprint_finds id sized).mono (fun f after h => ?_) (fun _ _ => trivial)
  cases place : free.place f with
  | mk start next =>
    cases start with
    | none => trivial
    | some start =>
      refine ⟨⟨left.described.sizesMore h.more, h.sized⟩, fun {x g} hx => ?_, f, h.found, place⟩
      exact h.more.footprints (by rw [left.keeps.footprints, hx])

/-- The item of a variable, given its type and where it starts. -/
def itemOf (decode : String → String) (base : Contract) (v : Variable) (type : TypeId)
    (start : Position) : StorageItem :=
  ⟨base.name, v.name, type, start.slot, start.offset, some (decode v.src), v.earlierLabel?⟩

/-- How far an extraction has come when one more variable has been placed. -/
def Progress.after (p : Progress) (decode : String → String) (base : Contract) (v : Variable)
    (placed : TypeId × Position × Position) (known : KnownTypes) : Progress :=
  ⟨known, placed.2.2, p.items ++ [itemOf decode base v placed.1 placed.2.1]⟩

/-- A variable is laid out, or its registration or its sizing fails. -/
lemma addVariable_eq (ds : Declarations) (decode : String → String) (fuel : Nat) (p : Progress)
    (base : Contract) (v : Variable) :
    (∃ placed known, (placeVariable ds fuel v p.free).run p.known = .ok (placed, known) ∧
      addVariable ds decode fuel p base v = .ok (p.after decode base v placed known)) ∨
    ∃ cause, (placeVariable ds fuel v p.free).run p.known = .error cause ∧
      addVariable ds decode fuel p base v = .error ⟨some (decode v.src), cause⟩ := by
  rw [addVariable]
  cases ran : (placeVariable ds fuel v p.free).run p.known with
  | ok result => exact Or.inl ⟨result.1, result.2, rfl, rfl⟩
  | error cause => exact Or.inr ⟨cause, rfl, rfl⟩

lemma ok_bind {α β : Type} (a : α) (next : α → Except ExtractionError β) :
    (Except.ok a >>= next) = next a := rfl

/-- Lays out variables one after another. -/
def addVariables (ds : Declarations) (decode : String → String) (fuel : Nat)
    (vs : List (Contract × Variable)) (p : Progress) : Except ExtractionError Progress :=
  vs.foldlM (fun p (base, v) => addVariable ds decode fuel p base v) p

lemma addVariables_cons_ok {fuel : Nat} {base : Contract} {v : Variable} {p next : Progress}
    (added : addVariable ds decode fuel p base v = .ok next) (vs : List (Contract × Variable)) :
    addVariables ds decode fuel ((base, v) :: vs) p = addVariables ds decode fuel vs next := by
  change (addVariable ds decode fuel p base v >>= addVariables ds decode fuel vs) = _
  rw [added]
  rfl

lemma addVariables_cons_error {fuel : Nat} {base : Contract} {v : Variable} {p : Progress}
    {e : ExtractionError} (failed : addVariable ds decode fuel p base v = .error e)
    (vs : List (Contract × Variable)) :
    addVariables ds decode fuel ((base, v) :: vs) p = .error e := by
  change (addVariable ds decode fuel p base v >>= addVariables ds decode fuel vs) = _
  rw [failed]
  rfl

/-- If variables are laid out, the first one has been placed, and the others go on behind it. -/
lemma addVariables_cons_eq_ok {fuel : Nat} {base : Contract} {v : Variable}
    {vs : List (Contract × Variable)} {p last : Progress}
    (ran : addVariables ds decode fuel ((base, v) :: vs) p = .ok last) :
    ∃ placed known, (placeVariable ds fuel v p.free).run p.known = .ok (placed, known) ∧
      addVariables ds decode fuel vs (p.after decode base v placed known) = .ok last := by
  rcases addVariable_eq ds decode fuel p base v with
    ⟨placed, known, placing, added⟩ | ⟨cause, _, failed⟩
  · rw [addVariables_cons_ok added] at ran
    exact ⟨placed, known, placing, ran⟩
  · rw [addVariables_cons_error failed] at ran
    cases ran

/-- The variables of a contract, laid out one after another. -/
lemma addVariables_settled {fuel : Nat} {vs : List (Contract × Variable)}
    (used : ∀ v ∈ vs, ds.Uses c v.2.type) {p p' : Progress} (settled : Settled ds c p.known)
    (ran : addVariables ds decode fuel vs p = .ok p') :
    Settled ds c p'.known ∧
      (∀ {id f}, p.known.footprints.find? id = some f →
        p'.known.footprints.find? id = some f) ∧
      ∃ items fs, p'.items = p.items ++ items ∧ Placed p.free items fs ∧
        ∀ q ∈ items.zip fs, p'.known.footprints.find? q.1.type = some q.2 := by
  induction vs generalizing p with
  | nil =>
    cases ran
    exact ⟨settled, fun h => h, [], [], by simp, .nil, by simp⟩
  | cons first vs ih =>
    obtain ⟨base, v⟩ := first
    obtain ⟨placed, known, placing, ran⟩ := addVariables_cons_eq_ok ran
    obtain ⟨between, grows, f, found, place⟩ := leads_of_ok
      (placeVariable_settled (used _ List.mem_cons_self) fuel p.free settled) placing
    obtain ⟨after, grows', items, fs, parts, rest, sizes⟩ :=
      ih (fun w hw => used w (List.mem_cons_of_mem _ hw)) between ran
    refine ⟨after, fun h => grows' (grows h),
      itemOf decode base v placed.1 placed.2.1 :: items, f :: fs, ?_, .cons place rest, ?_⟩
    · rw [parts, Progress.after, List.append_assoc]
      rfl
    · intro q hq
      rcases List.mem_cons.1 hq with rfl | hq
      · exact grows' found
      · exact sizes q hq

/-- What an extraction can fail at: finding the bases, a variable, or sizing what is left. -/
inductive FailsWith (ds : Declarations) (decode : String → String) (c : Contract) :
    ExtractionError → Prop where
  | lineage {cause : ResolutionError} (failed : ds.lineage c = .error cause) :
      FailsWith ds decode c ⟨none, cause⟩
  | placing {v : Variable} {fuel : Nat} {free : Position} {k : KnownTypes}
      {cause : ResolutionError} (used : ds.Uses c v.type) (settled : Settled ds c k)
      (failed : (placeVariable ds fuel v free).run k = .error cause) :
      FailsWith ds decode c ⟨some (decode v.src), cause⟩
  | sizing {k : KnownTypes} {cause : ResolutionError} (settled : Settled ds c k)
      (failed : (Sizing.sizeAll k.withoutSize).run k = .error cause) :
      FailsWith ds decode c ⟨some (decode c.src), cause⟩

lemma addVariables_error {fuel : Nat} {vs : List (Contract × Variable)}
    (used : ∀ v ∈ vs, ds.Uses c v.2.type) {p : Progress} (settled : Settled ds c p.known)
    {e : ExtractionError} (failed : addVariables ds decode fuel vs p = .error e) :
    FailsWith ds decode c e := by
  induction vs generalizing p with
  | nil => cases failed
  | cons first vs ih =>
    obtain ⟨base, v⟩ := first
    have here := used _ List.mem_cons_self
    rcases addVariable_eq ds decode fuel p base v with
      ⟨placed, known, placing, added⟩ | ⟨cause, placing, added⟩
    · rw [addVariables_cons_ok added] at failed
      obtain ⟨between, _⟩ := leads_of_ok (placeVariable_settled here fuel p.free settled) placing
      exact ih (fun w hw => used w (List.mem_cons_of_mem _ hw)) between failed
    · rw [addVariables_cons_error added] at failed
      cases failed
      exact .placing here settled placing

/-- An extraction finds the bases, lays out their variables and sizes what is left. -/
lemma layout_eq (ds : Declarations) (decode : String → String) (c : Contract) :
    layout ds decode c =
      match ds.lineage c with
      | .error cause => .error ⟨none, cause⟩
      | .ok bases =>
        match addVariables ds decode (ds.registrationFuel c) (variablesOf bases) .start with
        | .error e => .error e
        | .ok p =>
          match (Sizing.sizeAll p.known.withoutSize).run p.known with
          | .error cause => .error ⟨some (decode c.src), cause⟩
          | .ok (_, known) => .ok ⟨p.items, known.types⟩ := by
  have parts : layout ds decode c = (do
      let bases ← unlocated (ds.lineage c)
      let p ← addVariables ds decode (ds.registrationFuel c) (variablesOf bases) .start
      let sized ← located (decode c.src) ((Sizing.sizeAll p.known.withoutSize).run p.known)
      .ok ⟨p.items, sized.2.types⟩) := rfl
  rw [parts]
  cases ds.lineage c with
  | error cause => rfl
  | ok bases =>
    simp only [unlocated, ok_bind]
    cases addVariables ds decode (ds.registrationFuel c) (variablesOf bases) .start with
    | error e => rfl
    | ok p =>
      simp only [ok_bind]
      cases (Sizing.sizeAll p.known.withoutSize).run p.known <;> rfl

/-- The parts of a successful extraction. -/
lemma layout_ok {l : Layout} (ran : layout ds decode c = .ok l) :
    ∃ bases p known, ds.lineage c = .ok bases ∧
      addVariables ds decode (ds.registrationFuel c) (variablesOf bases) .start = .ok p ∧
      (Sizing.sizeAll p.known.withoutSize).run p.known = .ok ((), known) ∧
      l = ⟨p.items, known.types⟩ := by
  rw [layout_eq] at ran
  cases lineage : ds.lineage c with
  | error cause => rw [lineage] at ran; cases ran
  | ok bases =>
    simp only [lineage] at ran
    cases placed : addVariables ds decode (ds.registrationFuel c) (variablesOf bases) .start with
    | error e => rw [placed] at ran; cases ran
    | ok p =>
      simp only [placed] at ran
      cases sizing : (Sizing.sizeAll p.known.withoutSize).run p.known with
      | error cause => rw [sizing] at ran; cases ran
      | ok result =>
        rw [sizing] at ran
        cases ran
        exact ⟨bases, p, result.2, rfl, placed, sizing, rfl⟩

lemma layout_error {e : ExtractionError} (failed : layout ds decode c = .error e) :
    FailsWith ds decode c e := by
  rw [layout_eq] at failed
  cases lineage : ds.lineage c with
  | error cause =>
    rw [lineage] at failed
    cases failed
    exact .lineage lineage
  | ok bases =>
    simp only [lineage] at failed
    have start : Settled ds c Progress.start.known := ⟨.empty, .empty⟩
    have used := Declarations.uses_variable lineage
    cases placed : addVariables ds decode (ds.registrationFuel c) (variablesOf bases) .start with
    | error e' =>
      rw [placed] at failed
      cases failed
      exact addVariables_error used start placed
    | ok p =>
      have settled := (addVariables_settled used start placed).1
      simp only [placed] at failed
      cases sizing : (Sizing.sizeAll p.known.withoutSize).run p.known with
      | error cause =>
        rw [sizing] at failed
        cases failed
        exact .sizing settled sizing
      | ok result =>
        rw [sizing] at failed
        cases failed

/-- Every registered type has been sized. -/
structure AllSized (k known : KnownTypes) : Prop where
  sized : Sized known
  more : SizesMore k known
  complete : ∀ {id rule}, k.sizeRules.find? id = some rule →
    ∃ f, known.footprints.find? id = some f

lemma allSized_of_order {k known : KnownTypes} (sized : Sized k) {order : List TypeId}
    (covers : ∀ id ∈ k.withoutSize, id ∈ order)
    (ran : (Sizing.sizeAll order).run k = .ok ((), known)) : AllSized k known := by
  obtain ⟨sized, more, rest⟩ := leads_of_ok (Sizing.sizeAll_finds order sized) ran
  refine ⟨sized, more, fun {id rule} found => ?_⟩
  cases size : k.footprints.find? id with
  | some f => exact ⟨f, more.footprints size⟩
  | none =>
    refine rest id (covers id (List.mem_filter.2 ⟨Table.mem_keys_of_find? found, ?_⟩))
    simp [Table.contains, size]

lemma allSized {k known : KnownTypes} (sized : Sized k)
    (ran : (Sizing.sizeAll k.withoutSize).run k = .ok ((), known)) : AllSized k known :=
  allSized_of_order sized (fun _ mem => mem) ran

/-- An extracted layout, with the size rules and the footprints it was made from. -/
lemma extracted {l : Layout} (ran : layout ds decode c = .ok l) :
    ∃ rules fs, Extracted ds c l rules fs := by
  obtain ⟨bases, p, known, lineage, placed, sizing, rfl⟩ := layout_ok ran
  have start : Settled ds c Progress.start.known := ⟨.empty, .empty⟩
  obtain ⟨settled, _, items, fs, parts, stand, sizes⟩ :=
    addVariables_settled (Declarations.uses_variable lineage) start placed
  obtain ⟨sized, more, complete⟩ := allSized settled.sized sizing
  have described := settled.described.sizesMore more
  have whole : p.items = items := parts
  have footprint : ∀ {id item}, known.types.find? id = some item →
      ∃ f, known.footprints.find? id = some f := by
    intro id item found
    obtain ⟨rule, hr, _⟩ := described.accounted found (fun h => h)
    rw [more.rules] at hr
    exact complete hr
  refine ⟨known.sizeRules, fs, fun found => described.accounted found (fun h => h),
    described.entered, fun found => ?_, whole ▸ stand, fun q hq => ?_⟩
  · obtain ⟨f, hf⟩ := footprint found
    exact ⟨f, sized.follows hf, sized.bytes hf found⟩
  · have hf := more.footprints (sizes q (whole ▸ hq))
    have has := sized.follows hf
    obtain ⟨rule, hr⟩ := has.has_rule
    obtain ⟨item, found⟩ := described.entered hr
    exact ⟨has, item, found, sized.bytes hf found⟩

/-! ## Layouts of given programs -/

/-- Whether there is a layout that passes a check. -/
def passes (x : Except ExtractionError Layout) (check : Layout → Bool) : Bool :=
  match x with
  | .ok l => check l
  | .error _ => false

lemma layout_of_check (x : Except ExtractionError Layout) (check : Layout → Bool)
    (h : passes x check = true) : ∃ l, x = .ok l ∧ check l = true := by
  cases x with
  | error e => cases h
  | ok l => exact ⟨l, rfl, h⟩

/-- The two layouts of an upgrade, if both can be extracted and pass a check. -/
lemma layouts_of_check (x y : Except ExtractionError Layout) (check : Layout → Layout → Bool)
    (h : passes x (fun old => passes y (check old)) = true) :
    ∃ old new, x = .ok old ∧ y = .ok new ∧ check old new = true := by
  obtain ⟨old, extracted, h⟩ := layout_of_check x _ h
  obtain ⟨new, extracted', h⟩ := layout_of_check y (check old) h
  exact ⟨old, new, extracted, extracted', h⟩

end Extraction

/-- A stored variable without documentation. -/
def plainVariable (id : NodeId) (name : String) (type : TypeName) : Variable :=
  ⟨id, name, type, .empty, false, some .mutable, true, none, ""⟩

def elementaryType (id : NodeId) (name : String) : TypeName :=
  .elementary id name ⟨some ("t_" ++ name), some name⟩

/-- An annotation for the struct that is declared at a node. -/
def structType (id : NodeId) (node : Nat) (name fullName : String) : TypeName :=
  .declared id node (some name)
    ⟨some ("t_struct$_" ++ name ++ "_$" ++ Numeral.write node ++ "_storage_ptr"),
      some ("struct " ++ fullName)⟩

end UpgradeSafety
