import UpgradeSafety.Proofs.Compilation.Renumbering
import UpgradeSafety.Proofs.Extraction.Layouts
import UpgradeSafety.Proofs.Extraction.SideBySide

/-!
# Layouts do not depend on node ids

A program and the same program with other node ids have the same layouts: the
canonical ids agree, so that the two registrations know the same types and
differ only in the node ids that they recorded as origins.
-/

namespace UpgradeSafety

variable {f : Renumbering} {ds ds' : Declarations}

/-! ## Canonical ids -/

namespace TypeTree

lemma isMapping_renumber (number : Nat → Nat) (t : TypeTree) :
    (t.renumber number).isMapping = t.isMapping := by
  cases t <;> rfl

lemma KeysPlain.renumber (number : Nat → Nat) {t : TypeTree} (keys : t.KeysPlain) :
    (t.renumber number).KeysPlain := by
  induction t with
  | elementary id => trivial
  | declared kind name node pointer => trivial
  | mapping key value ihk ihv =>
    obtain ⟨notMapping, inKey, inValue⟩ := keys
    refine ⟨?_, ihk inKey, ihv inValue⟩
    rw [isMapping_renumber]
    exact notMapping
  | array element length pointer ih => exact ih keys

/-- Where the nodes are given the same names, the trees are written alike. -/
lemma write_renumber {q q' : NodeId → Option String} {number : Nat → Nat} {t : TypeTree}
    (lettered : t.Lettered)
    (same : ∀ node ∈ t.nodes, TypeId.chosenName q node = TypeId.chosenName q' (number node)) :
    t.write (.canonical q) = (t.renumber number).write (.canonical q') := by
  induction t with
  | elementary id => rfl
  | declared kind name node pointer =>
    have shown : name.isHidden = false := lettered name List.mem_cons_self
    have chosen := same node List.mem_cons_self
    simp only [write, renumber, Spelling.canonical_declared, shown, chosen, Bool.false_eq_true,
      if_false]
  | mapping key value ihk ihv =>
    have inKey := ihk (fun name member => lettered name (List.mem_append_left _ member))
      fun node member => same node (List.mem_append_left _ member)
    have inValue := ihv (fun name member => lettered name (List.mem_append_right _ member))
      fun node member => same node (List.mem_append_right _ member)
    rw [write, inKey, inValue]
    rfl
  | array element length pointer ih =>
    rw [write, ih lettered same]
    rfl

end TypeTree

namespace Declarations.Renumbered

lemma canonicalId (h : ds.Renumbered f ds') {raw raw' : String} (encodes : f.Encodes raw raw') :
    ds.canonicalId raw = ds'.canonicalId raw' := by
  obtain ⟨t, keys, lettered, occur, rfl, rfl⟩ := encodes
  rw [Declarations.canonicalId, Declarations.canonicalId, TypeId.canonicalWith_encode _ t keys,
    TypeId.canonicalWith_encode _ _ (keys.renumber f.number)]
  refine congrArg String.ofList (TypeTree.write_renumber lettered fun node member => ?_)
  obtain ⟨old, new⟩ := f.small (occur node member)
  rw [TypeId.chosenName, TypeId.chosenName, if_pos old, if_pos new]
  exact h.distinctName? ⟨node, occur node member, rfl, rfl⟩

/-! ## Contracts and their bases -/

lemma contract (h : ds.Renumbered f ds') {n n' : NodeId} (hn : f.Moves n n') :
    EndAlike True (Contract.Renumbered f) (ds.contract n) (ds'.contract n') := by
  apply contract_alike
  refine optionRel_imp (h.find? hn) fun d d' hd => ?_
  cases hd with
  | contract h => exact .contract h
  | struct h => exact .other (by simp [Declaration.kind]) (by simp [Declaration.kind])
  | enum h => exact .other (by simp [Declaration.kind]) (by simp [Declaration.kind])
  | valueType h => exact .other (by simp [Declaration.kind]) (by simp [Declaration.kind])

lemma contractNamed (h : ds.Renumbered f ds') (name : String) :
    EndAlike True (Contract.Renumbered f) (ds.contractNamed name) (ds'.contractNamed name) := by
  have named := forall₂_filter (p := fun d => d.kind = .contract && d.name = name)
    (q := fun d => d.kind = .contract && d.name = name) h fun d d' hd => by
      rw [hd.kind, hd.name]
  apply contractNamed_alike named
  intro d _ d' hd
  exact h.contract hd.id

lemma lineage (h : ds.Renumbered f ds') {c c' : Contract} (hc : c.Renumbered f c') :
    EndAlike True (List.Forall₂ (Contract.Renumbered f)) (ds.lineage c) (ds'.lineage c') := by
  apply lineage_alike hc
  refine hc.lineage.imp fun n n' hn => ⟨hn.eq_iff hc.id, h.contract hn⟩

lemma annotationCount (h : ds.Renumbered f ds') {c c' : Contract} (hc : c.Renumbered f c') :
    ds.annotationCount c = ds'.annotationCount c' := by
  have annotations : List.Forall₂ (TypeName.Renumbered f)
      ((Declaration.contract c :: ds.all).flatMap Declaration.annotations)
      ((Declaration.contract c' :: ds'.all).flatMap Declaration.annotations) :=
    List.rel_flatMap (.cons (.contract hc) h) fun _ _ hd => hd.annotations
  have counts : List.Forall₂ Eq
      (((Declaration.contract c :: ds.all).flatMap Declaration.annotations).map TypeName.count)
      (((Declaration.contract c' :: ds'.all).flatMap Declaration.annotations).map
        TypeName.count) :=
    List.rel_map (fun _ _ ht => ht.count) annotations
  rw [List.forall₂_eq_eq_eq] at counts
  rw [Declarations.annotationCount, Declarations.annotationCount, counts]

lemma registrationFuel (h : ds.Renumbered f ds') {c c' : Contract} (hc : c.Renumbered f c') :
    ds.registrationFuel c = ds'.registrationFuel c' := by
  rw [Declarations.registrationFuel, Declarations.registrationFuel, h.annotationCount hc]

end Declarations.Renumbered

/-! ## What the registrations know -/

/-- The same types and sizes, with origins that have new numbers. -/
structure KnownTypes.Renumbered (f : Renumbering) (k k' : KnownTypes) : Prop where
  types : k.types = k'.types
  sizeRules : k.sizeRules = k'.sizeRules
  footprints : k.footprints = k'.footprints
  origins : ∀ id, Option.Rel f.Moves (k.origins.find? id) (k'.origins.find? id)

namespace KnownTypes.Renumbered

variable {k k' : KnownTypes}

lemma empty : KnownTypes.empty.Renumbered f .empty := ⟨rfl, rfl, rfl, fun _ => .none⟩

lemma putOrigin (h : k.Renumbered f k') (id : TypeId) {n n' : NodeId} (hn : f.Moves n n') :
    (k.putOrigin id n).Renumbered f (k'.putOrigin id n') where
  types := h.types
  sizeRules := h.sizeRules
  footprints := h.footprints
  origins x := by
    change Option.Rel f.Moves ((k.origins.insert id n).find? x) ((k'.origins.insert id n').find? x)
    rw [Table.find?_insert, Table.find?_insert]
    by_cases same : x = id
    · rw [if_pos same, if_pos same]
      exact .some hn
    · rw [if_neg same, if_neg same]
      exact h.origins x

lemma putType (h : k.Renumbered f k') (id : TypeId) (label : String) (kind : TypeKind) :
    (k.putType id label kind).Renumbered f (k'.putType id label kind) where
  types := by rw [KnownTypes.putType, KnownTypes.putType, h.types]
  sizeRules := h.sizeRules
  footprints := h.footprints
  origins := h.origins

lemma putSizeRule (h : k.Renumbered f k') (id : TypeId) (rule : SizeRule) :
    (k.putSizeRule id rule).Renumbered f (k'.putSizeRule id rule) where
  types := h.types
  sizeRules := by rw [KnownTypes.putSizeRule, KnownTypes.putSizeRule, h.sizeRules]
  footprints := h.footprints
  origins := h.origins

lemma putFootprint (h : k.Renumbered f k') (id : TypeId) (size : Footprint) :
    (k.putFootprint id size).Renumbered f (k'.putFootprint id size) where
  types := by rw [KnownTypes.putFootprint, KnownTypes.putFootprint, h.types]
  sizeRules := h.sizeRules
  footprints := by rw [KnownTypes.putFootprint, KnownTypes.putFootprint, h.footprints]
  origins := h.origins

end KnownTypes.Renumbered

lemma Declaration.Renumbered.resembles {d d' : Declaration} (h : d.Renumbered f d') :
    d.Resembles (TypeName.Renumbered f) d' := by
  cases h with
  | contract h => exact .contract _ _
  | struct h => exact .struct (h.members.imp fun _ _ hm => ⟨hm.name, hm.type⟩)
  | enum h => exact .enum h.members
  | valueType h => exact .valueType h.underlying

lemma TypeName.Renumbered.resembles {t t' : TypeName} (h : t.Renumbered f t') :
    t.Resembles (TypeName.Renumbered f) t' := by
  cases h with
  | elementary => exact .elementary
  | declared => exact .declared
  | mapping _ key value => exact .mapping key value
  | array _ element => exact .array element
  | function => exact .function

/-- The registrations of a program and of the same program with other node ids. -/
lemma Declarations.Renumbered.sideBySide (h : ds.Renumbered f ds') :
    SideBySide True ds ds' (TypeName.Renumbered f) Eq f.Moves (KnownTypes.Renumbered f) where
  shapes ht := ht.resembles
  texts ht := ht.description.text
  named ht := optionRel_imp ht.description.identifier fun _ _ => h.canonicalId
  refers ht := ht.declaration?
  resolved hn := optionRel_imp (h.find? hn) fun _ _ hd => hd.resembles
  apart hn hm := hn.eq_iff hm
  lengths hid := congrArg TypeId.arrayLength? hid
  elementary _ _ _ hid := congrArg Footprint.ofElementary? hid
  entered hk hid := by rw [hk.types, hid]
  origins hk hid := by
    rw [← hid]
    exact hk.origins _
  putOrigin hk hid hn := by
    rw [← hid]
    exact hk.putOrigin _ hn
  putType hk hid hkind text := by
    rw [← hid, ← hkind.eq]
    exact hk.putType _ _ _
  putSizeRule hk hid hrule := by
    rw [← hid, ← hrule.eq]
    exact hk.putSizeRule _ _

/-! ## Sizes -/

namespace Sizing

open Registering

lemma sized_inStep (id : TypeId) (size : Option Footprint) :
    InStep True (KnownTypes.Renumbered f) Eq (sized id size) (sized id size) := by
  cases size with
  | none => exact inStep_throw _ _
  | some size => exact inStep_pure rfl

lemma follow_inStep {of : TypeId → Registering Footprint}
    (each : ∀ id, InStep True (KnownTypes.Renumbered f) Eq (of id) (of id)) (id : TypeId)
    (rule : SizeRule) :
    InStep True (KnownTypes.Renumbered f) Eq (follow of id rule) (follow of id rule) := by
  cases rule with
  | known size => exact inStep_pure rfl
  | sameAs other => exact each other
  | fixedArray element length =>
    apply inStep_bind (each element)
    rintro size _ rfl
    exact sized_inStep id _
  | struct members =>
    have inside : InStep True (KnownTypes.Renumbered f) (List.Forall₂ Eq) (members.mapM of)
        (members.mapM of) := by
      apply inStep_mapM (List.forall₂_same.2 fun member _ => Eq.refl member)
      rintro member _ rfl
      exact each member
    apply inStep_bind inside
    intro sizes sizes' same
    rw [List.forall₂_eq_eq_eq] at same
    rw [same]
    exact sized_inStep id _

/-- Sizes are found without a look at the origins. -/
lemma footprintInside_inStep (fuel : Nat) (enclosing : List TypeId) (id : TypeId) :
    InStep True (KnownTypes.Renumbered f) Eq (footprintInside fuel enclosing id)
      (footprintInside fuel enclosing id) := by
  induction fuel using Nat.strongRecOn generalizing enclosing id with
  | ind fuel ih =>
    unfold footprintInside
    apply inStep_bind inStep_get
    intro k k' hk
    rw [hk.footprints]
    cases k'.footprints.find? id with
    | some size => exact inStep_pure rfl
    | none =>
      by_cases inside : id ∈ enclosing
      · simp only [inside, if_true]
        exact inStep_throw _ _
      · simp only [inside, if_false]
        apply inStep_bind inStep_get
        intro k k' hk
        rw [hk.sizeRules]
        cases k'.sizeRules.find? id with
        | none => exact inStep_throw _ _
        | some rule =>
          cases fuel with
          | zero => exact inStep_throw _ _
          | succ fuel =>
            have deeper := ih fuel (Nat.lt_succ_self fuel) (id :: enclosing)
            apply inStep_bind (follow_inStep deeper id rule)
            rintro size _ rfl
            refine inStep_bind (inStep_modify fun k k' hk => ?_) fun _ _ _ => inStep_pure rfl
            exact hk.putFootprint id size

lemma footprint_inStep (id : TypeId) :
    InStep True (KnownTypes.Renumbered f) Eq (footprint id) (footprint id) := by
  apply inStep_bind inStep_get
  intro k k' hk
  rw [hk.sizeRules]
  exact footprintInside_inStep _ [] id

lemma sizeAll_inStep (ids : List TypeId) :
    InStep True (KnownTypes.Renumbered f) (fun _ _ => True) (sizeAll ids) (sizeAll ids) := by
  induction ids with
  | nil => exact inStep_pure trivial
  | cons id ids ih =>
    have step : sizeAll (id :: ids) = (do discard (footprint id); sizeAll ids) := rfl
    have forgotten : InStep True (KnownTypes.Renumbered f) (fun _ _ => True)
        (discard (footprint id)) (discard (footprint id)) :=
      inStep_bind (footprint_inStep id) fun _ _ _ => inStep_pure trivial
    rw [step]
    exact inStep_bind forgotten fun _ _ _ => ih

end Sizing

/-! ## Layouts -/

namespace Extraction

open Registering

/-- The same position and items, with types that differ in nothing but their origins. -/
structure Progress.Renumbered (f : Renumbering) (p p' : Progress) : Prop where
  known : p.known.Renumbered f p'.known
  free : p.free = p'.free
  items : p.items = p'.items

lemma placeVariable_inStep (h : ds.Renumbered f ds') (fuel : Nat) {v v' : Variable}
    (hv : v.Renumbered f v') (free : Position) :
    InStep True (KnownTypes.Renumbered f) Eq (placeVariable ds fuel v free)
      (placeVariable ds' fuel v' free) := by
  apply inStep_bind (h.sideBySide.register (fun _ => rfl) hv.type)
  rintro id _ rfl
  apply inStep_bind (Sizing.footprint_inStep id)
  rintro size _ rfl
  cases free.place size with
  | mk start next =>
    cases start with
    | none => exact inStep_throw _ _
    | some start => exact inStep_pure rfl

lemma addVariable_alike (h : ds.Renumbered f ds') (decode : String → String) (fuel : Nat)
    {p p' : Progress} (hp : p.Renumbered f p') {base base' : Contract} (hb : base.name = base'.name)
    {v v' : Variable} (hv : v.Renumbered f v') :
    EndAlike True (Progress.Renumbered f) (addVariable ds decode fuel p base v)
      (addVariable ds' decode fuel p' base' v') := by
  rw [addVariable, addVariable, hv.src, hp.free, hb, hv.name, hv.earlierLabel?]
  apply EndAlike.bind (located_alike _ _ (placeVariable_inStep h fuel hv p'.free _ _ hp.known))
  rintro ⟨⟨type, start, next⟩, known⟩ ⟨_, known'⟩ ⟨rfl, hk⟩
  exact .ok ⟨hk, rfl, congrArg (· ++ _) hp.items⟩

lemma variablesOf_renumbered {bases bases' : List Contract}
    (h : List.Forall₂ (Contract.Renumbered f) bases bases') :
    List.Forall₂ (fun q q' => q.1.name = q'.1.name ∧ q.2.Renumbered f q'.2) (variablesOf bases)
      (variablesOf bases') :=
  List.rel_flatMap h fun _ _ hb => List.rel_map (fun _ _ hv => ⟨hb.name, hv⟩) hb.storedVariables

lemma addVariables_alike (h : ds.Renumbered f ds') (decode : String → String) (fuel : Nat)
    {vs vs' : List (Contract × Variable)}
    (hvs : List.Forall₂ (fun q q' => q.1.name = q'.1.name ∧ q.2.Renumbered f q'.2) vs vs')
    {p p' : Progress} (hp : p.Renumbered f p') :
    EndAlike True (Progress.Renumbered f) (addVariables ds decode fuel vs p)
      (addVariables ds' decode fuel vs' p') := by
  refine EndAlike.foldlM hvs (fun q q' hq r r' hr => ?_) hp
  exact addVariable_alike h decode fuel hr hq.1 hq.2

lemma layout_alike (h : ds.Renumbered f ds') (decode : String → String) {c c' : Contract}
    (hc : c.Renumbered f c') :
    EndAlike True Eq (layout ds decode c) (layout ds' decode c') := by
  rw [layout, layout, h.registrationFuel hc, hc.src]
  apply EndAlike.bind (unlocated_alike (h.lineage hc))
  intro bases bases' hbases
  apply EndAlike.bind (addVariables_alike h decode _ (variablesOf_renumbered hbases)
    ⟨.empty, rfl, rfl⟩)
  intro p p' hp
  have sizing := Sizing.sizeAll_inStep p.known.withoutSize _ _ hp.known
  have left : p.known.withoutSize = p'.known.withoutSize := by
    rw [KnownTypes.withoutSize, KnownTypes.withoutSize, hp.known.sizeRules, hp.known.footprints]
  rw [left] at sizing ⊢
  apply EndAlike.bind (located_alike _ _ sizing)
  rintro ⟨_, known⟩ ⟨_, known'⟩ ⟨_, hk⟩
  apply EndAlike.ok
  rw [hp.items, hk.types]

/--
A program and the same program with other node ids have the same layouts, for a
contract of any name and however source locations are decoded; a layout that can
be extracted from one of them can be extracted from the other.
-/
theorem layoutNamed_renumbered (f : Renumbering) {p p' : Compilation} (h : p.Renumbered f p')
    (decode : String → String) (name : String) (l : Layout) :
    layoutNamed (.ofCompilation p) decode name = .ok l ↔
      layoutNamed (.ofCompilation p') decode name = .ok l := by
  have declared := h.declarations
  have alike : EndAlike True Eq (layoutNamed (.ofCompilation p) decode name)
      (layoutNamed (.ofCompilation p') decode name) := by
    apply EndAlike.bind (unlocated_alike (declared.contractNamed name))
    intro c c' hc
    exact layout_alike declared decode hc
  exact alike.ok_iff l

end Extraction

open Extraction

/-! ### A ledger with other node ids -/

def entryName : DeclaredName :=
  ⟨"Entry".toList, by decide, word_of_all (by decide), undigited_of_all (by decide)⟩

def wordTree : TypeTree :=
  .elementary ⟨"t_uint256".toList, word_of_all (by decide), "uint256".toList, rfl⟩

/-- A mapping from numbers to entries. -/
def entriesTree (number : Nat → Nat) : TypeTree :=
  .mapping wordTree (.declared .struct entryName (number 3) false)

def describedBy (t : TypeTree) (text : String) : TypeDescription := ⟨some t.encode, some text⟩

def wordType (id : Nat) : TypeName := .elementary id "uint256" (describedBy wordTree "uint256")

/-- A struct with one member, declared inside a contract or at file level. -/
def entryStruct (member type id : Nat) (canonicalName : String) : StructDefinition :=
  ⟨id, "Entry", some canonicalName, [plainVariable member "amount" (wordType type)], ""⟩

def entriesType (number : Nat → Nat) : TypeName :=
  .mapping (number 6) (wordType (number 4))
    (.declared (number 5) (number 3) (some "Entry")
      (describedBy (.declared .struct entryName (number 3) true) "struct Ledger.Entry"))
    (describedBy (entriesTree number) "mapping(uint256 => struct Ledger.Entry)")

/-- A contract with a struct whose name is shared with one at file level. -/
def ledger (number : Nat → Nat) : Contract :=
  ⟨number 8, "Ledger", [number 8],
    [.struct (entryStruct (number 2) (number 1) (number 3) "Ledger.Entry"),
      .variable (plainVariable (number 7) "entries" (entriesType number))], "8:1:0"⟩

def ledgerSource (number : Nat → Nat) : Compilation :=
  ⟨.ofList [("Ledger.sol", ⟨0, number 9, "Ledger.sol",
    [.struct (entryStruct (number 11) (number 10) (number 12) "Entry"),
      .contract (ledger number)]⟩)]⟩

/-- The nodes up to a bound, moved up by a distance. -/
def Renumbering.shift (bound distance : Nat) (small : bound + distance < Numeral.bound63) :
    Renumbering where
  occurs m := m ≤ bound
  number m := m + distance
  injective _ _ h := Nat.add_right_cancel h
  small h := by
    constructor
    · omega
    · omega

lemma plainVariable_renumbered {i i' : NodeId} (id : f.Moves i i') (name : String)
    {t t' : TypeName} (type : t.Renumbered f t') :
    (plainVariable i name t).Renumbered f (plainVariable i' name t') where
  id := id
  name := rfl
  type := type
  description := ⟨.none, rfl⟩
  constant := rfl
  mutability := rfl
  stateVariable := rfl
  documentation := rfl
  src := rfl

section

variable (occur : ∀ m ≤ 12, f.occurs m)

include occur

lemma wordType_renumbered {m : Nat} (small : m ≤ 12) :
    (wordType m).Renumbered f (wordType (f.number m)) := by
  refine .elementary ⟨m, occur m small, rfl, rfl⟩ "uint256" ⟨.some ?_, rfl⟩
  exact ⟨wordTree, trivial, by decide, by simp [wordTree, TypeTree.nodes], rfl, rfl⟩

lemma entryStruct_renumbered (canonicalName : String) {member type id : Nat} (hm : member ≤ 12)
    (ht : type ≤ 12) (hid : id ≤ 12) :
    (entryStruct member type id canonicalName).Renumbered f
      (entryStruct (f.number member) (f.number type) (f.number id) canonicalName) where
  id := ⟨id, occur id hid, rfl, rfl⟩
  name := rfl
  canonicalName := rfl
  members := .cons (plainVariable_renumbered ⟨member, occur member hm, rfl, rfl⟩ "amount"
    (wordType_renumbered occur ht)) .nil
  src := rfl

lemma entriesType_renumbered : (entriesType id).Renumbered f (entriesType f.number) := by
  have data : f.Moves (3 : Nat) (f.number 3) := ⟨3, occur 3 (by decide), rfl, rfl⟩
  refine .mapping ⟨6, occur 6 (by decide), rfl, rfl⟩ (wordType_renumbered occur (by decide))
    (.declared ⟨5, occur 5 (by decide), rfl, rfl⟩ data (some "Entry") ⟨.some ?_, rfl⟩)
    ⟨.some ?_, rfl⟩
  · refine ⟨.declared .struct entryName 3 true, trivial, by decide, ?_, rfl, rfl⟩
    intro node member
    rw [List.mem_singleton.1 member]
    exact occur 3 (by decide)
  · refine ⟨entriesTree id, ⟨rfl, trivial, trivial⟩, by decide, ?_, rfl, rfl⟩
    intro node member
    rw [List.mem_singleton.1 member]
    exact occur 3 (by decide)

lemma ledger_renumbered : (ledger id).Renumbered f (ledger f.number) where
  id := ⟨8, occur 8 (by decide), rfl, rfl⟩
  name := rfl
  lineage := .cons ⟨8, occur 8 (by decide), rfl, rfl⟩ .nil
  nodes := .cons (.struct (entryStruct_renumbered occur "Ledger.Entry" (by decide) (by decide)
    (by decide))) (.cons (.stored (plainVariable_renumbered ⟨7, occur 7 (by decide), rfl, rfl⟩
      "entries" (entriesType_renumbered occur))) .nil)
  src := rfl

lemma ledgerSource_renumbered : (ledgerSource id).Renumbered f (ledgerSource f.number) := by
  refine .cons ⟨rfl, rfl, ⟨9, occur 9 (by decide), rfl, rfl⟩, rfl, ?_⟩ .nil
  exact .cons (.struct (entryStruct_renumbered occur "Entry" (by decide) (by decide)
    (by decide))) (.cons (.contract (ledger_renumbered occur)) .nil)

end

theorem ledger_shifted_layout :
    ∃ l, layoutNamed (.ofCompilation (ledgerSource id)) id "Ledger" = .ok l ∧
      layoutNamed (.ofCompilation (ledgerSource (· + 100))) id "Ledger" = .ok l ∧
      (l.type? "t_struct(Ledger.Entry)storage").isSome = true := by
  have renumbered := ledgerSource_renumbered (f := .shift 12 100 (by decide)) fun _ small => small
  obtain ⟨l, ran, entered⟩ := layout_of_check
    (layoutNamed (.ofCompilation (ledgerSource id)) id "Ledger")
    (fun l => (l.type? "t_struct(Ledger.Entry)storage").isSome) (by decide +kernel)
  exact ⟨l, ran, (layoutNamed_renumbered _ renumbered id "Ledger" l).1 ran, entered⟩

end UpgradeSafety
