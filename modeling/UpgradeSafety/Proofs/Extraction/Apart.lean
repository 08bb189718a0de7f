import Mathlib.Logic.Relation
import UpgradeSafety.Proofs.Extraction.Complete
import UpgradeSafety.Proofs.Packing.Placing

/-!
# Items do not overlap

The items of an extracted layout are those of the stored variables in order. Each
one starts behind the last byte of every one before it, with the width that the
layout gives for its type. Items that share a slot with others never cross its end,
and the others have their slots for themselves.
-/

namespace UpgradeSafety

open Extraction
open Relation (ReflTransGen)

/-- The first byte of storage that an item takes. -/
def StorageItem.start (item : StorageItem) : Nat := slotBytes * item.slot + item.offset

namespace Layout

/-- The width of an item, which is that of its type. -/
def width (l : Layout) (item : StorageItem) : Nat :=
  ((l.type? item.type).map TypeItem.numberOfBytes).getD 0

/-- Some byte of an item is in a slot. -/
def Touches (l : Layout) (item : StorageItem) (slot : Nat) : Prop :=
  ∃ byte, item.start ≤ byte ∧ byte < item.start + l.width item ∧ byte / slotBytes = slot

/-- A type of values that may share a slot: a contract, an enum, or an elementary type. -/
inductive SharesSlots (l : Layout) (id : TypeId) : Prop where
  | contract {info : TypeItem} (found : l.type? id = some info) (kind : info.kind = .contract)
  | enum {info : TypeItem} {members : Option (List String)} (found : l.type? id = some info)
      (kind : info.kind = .enum members)
  | elementary {info : TypeItem} (found : l.type? id = some info) (kind : info.kind = .value)
      (named : (Footprint.ofElementary? id).isSome = true) (notText : ¬ id.NamesText)

/-- A type of values that have slots of their own: a struct, an array, a mapping, or a text. -/
inductive OwnsSlots (l : Layout) (id : TypeId) : Prop where
  | struct {info : TypeItem} {members : Option (List StructMember)}
      (found : l.type? id = some info) (kind : info.kind = .struct members)
  | array {info : TypeItem} {element : TypeId} {length : ArrayLength}
      (found : l.type? id = some info) (kind : info.kind = .array element length)
  | mapping {info : TypeItem} {key value : TypeId} (found : l.type? id = some info)
      (kind : info.kind = .mapping key value)
  | text {info : TypeItem} (found : l.type? id = some info) (kind : info.kind = .value)
      (text : id.NamesText)

end Layout

namespace Declarations

/-- No enum has more members than a word of 64 bits can count. -/
def EnumsCounted (ds : Declarations) : Prop :=
  ∀ e, .enum e ∈ ds.all → e.members.length < Numeral.bound64

/-- What the item of a variable says of it, apart from its place. -/
structure ItemFor (ds : Declarations) (decode : String → String) (item : StorageItem)
    (declared : Contract × Variable) : Prop where
  contract : item.contract = declared.1.name
  label : item.label = declared.2.name
  type : ds.idOf? declared.2.type = some item.type
  src : item.src = some (decode declared.2.src)
  renamedFrom : item.renamedFrom = declared.2.earlierLabel?

end Declarations

/-! ## Ranges of bytes -/

/-- Items that stand one after another start behind one another, and fit their slots. -/
lemma Placed.ranges {free : Position} {items : List StorageItem} {fs : List Footprint}
    (placed : Placed free items fs) (inside : free.offset ≤ slotBytes)
    (admissible : ∀ f ∈ fs, f.Admissible) :
    (∀ q ∈ items.zip fs, free.byte ≤ q.1.start ∧
        (q.2.ownSlot = true → q.1.offset = 0 ∧ slotBytes ∣ q.2.bytes) ∧
        (q.2.ownSlot = false → q.1.offset + q.2.bytes ≤ slotBytes)) ∧
      (items.zip fs).Pairwise fun q q' => q.1.start + q.2.bytes ≤ q'.1.start := by
  induction placed with
  | nil => simp
  | @cons free next item f items fs place _ ih =>
    have first := Position.places inside (admissible f List.mem_cons_self) place
    obtain ⟨each, apart⟩ := ih first.inside fun g hg => admissible g (List.mem_cons_of_mem f hg)
    have behind : ∀ q ∈ items.zip fs, item.start + f.bytes ≤ q.1.start := by
      intro q hq
      have later : next.byte ≤ q.1.start := (each q hq).1
      rwa [first.stop] at later
    rw [List.zip_cons_cons]
    constructor
    · intro q hq
      rcases List.mem_cons.1 hq with rfl | hq
      · exact ⟨first.behind, first.aligned, first.shared⟩
      · refine ⟨?_, (each q hq).2⟩
        have later := behind q hq
        have start : free.byte ≤ item.start := first.behind
        omega
    · exact List.pairwise_cons.2 ⟨behind, apart⟩

/-- What starts at a slot boundary and fills whole slots shares none of them. -/
lemma Layout.alone {l : Layout} {i j : Nat} {item other : StorageItem}
    (apart : l.storage.Pairwise fun a b => a.start + l.width a ≤ b.start)
    (hi : l.storage[i]? = some item) (hj : l.storage[j]? = some other) (differ : j ≠ i)
    (first : item.offset = 0) (whole : slotBytes ∣ l.width item) {slot : Nat}
    (touches : l.Touches item slot) : ¬ l.Touches other slot := by
  rintro ⟨byte', from', to', rfl⟩
  obtain ⟨byte, start, stop, same⟩ := touches
  obtain ⟨count, width⟩ := whole
  obtain ⟨inside, rfl⟩ := List.getElem?_eq_some_iff.1 hi
  obtain ⟨inside', rfl⟩ := List.getElem?_eq_some_iff.1 hj
  have ordered := List.pairwise_iff_getElem.1 apart
  have boundary : l.storage[i].start = slotBytes * l.storage[i].slot := by
    rw [StorageItem.start, first, Nat.add_zero]
  simp only [slotBytes] at *
  rcases Nat.lt_or_gt_of_ne differ with before | behind
  · have order := ordered j i inside' inside before
    omega
  · have order := ordered i j inside inside' behind
    omega

/-! ## What an item stands for -/

namespace Extraction

open Registering

variable {ds : Declarations} {c : Contract} {decode : String → String}

lemma register_named (fuel : Nat) (t : TypeName) (k : KnownTypes) :
    Leads (Registration.register ds fuel t) k (fun id _ => ds.idOf? t = some id)
      (fun _ => True) := by
  cases fuel with
  | zero => trivial
  | succ fuel =>
    apply Registration.leads_register (fun _ => trivial)
    intro id named
    apply leads_always
    intro d after
    constructor
    · intro _
      exact named
    · intro _
      exact leads_always fun _ _ => named

/-- A variable is laid out under the id of its annotation. -/
lemma placeVariable_named (fuel : Nat) (v : Variable) (free : Position) (k : KnownTypes) :
    Leads (placeVariable ds fuel v free) k (fun placed _ => ds.idOf? v.type = some placed.1)
      (fun _ => True) := by
  rw [placeVariable]
  simp only [leads_bind]
  apply (register_named fuel v.type k).imp
  intro id between named
  apply leads_always
  intro f after
  rcases free.place f with ⟨start | start, next⟩
  · trivial
  · exact named

/-- The items of variables, in their order. -/
lemma addVariables_items {fuel : Nat} {vs : List (Contract × Variable)} {p p' : Progress}
    (ran : addVariables ds decode fuel vs p = .ok p') :
    ∃ items, p'.items = p.items ++ items ∧ List.Forall₂ (ds.ItemFor decode) items vs := by
  induction vs generalizing p with
  | nil =>
    cases ran
    exact ⟨[], by simp, .nil⟩
  | cons first vs ih =>
    obtain ⟨base, v⟩ := first
    obtain ⟨placed, known, placing, ran⟩ := addVariables_cons_eq_ok ran
    obtain ⟨items, parts, each⟩ := ih ran
    have named := leads_of_ok (placeVariable_named fuel v p.free p.known) placing
    refine ⟨itemOf decode base v placed.1 placed.2.1 :: items, ?_, .cons ?_ each⟩
    · rw [parts, Progress.after, List.append_assoc]
      rfl
    · exact ⟨rfl, rfl, named, rfl, rfl⟩

end Extraction

namespace Extracted

variable {ds : Declarations} {c : Contract} {l : Layout} {rules : Table SizeRule}
  {fs : List Footprint}

/-- Whether the values of a type share slots is decided by what the type stands for. -/
lemma takes (whole : Extracted ds c l rules fs) (counted : ds.EnumsCounted) {id : TypeId}
    {f : Footprint} (measures : l.Measures ds c id f) :
    f.Admissible ∧ ∃ x, ReflTransGen (l.StandsFor ds c) id x ∧
      (f.ownSlot = false ∧ l.SharesSlots x ∨ f.ownSlot = true ∧ l.OwnsSlots x) := by
  induction measures with
  | @elementary id info f found kind size =>
    obtain ⟨admissible, text⟩ := Footprint.ofElementary?_admissible size
    refine ⟨admissible, id, .refl, ?_⟩
    cases own : f.ownSlot with
    | true => exact Or.inr ⟨rfl, .text found kind (text.1 own)⟩
    | false =>
      have notText : ¬ id.NamesText := mt text.2 (by simp [own])
      exact Or.inl ⟨rfl, .elementary found kind (by simp [size]) notText⟩
  | valueType stands _ ih =>
    obtain ⟨admissible, x, inner, takes⟩ := ih
    exact ⟨admissible, x, .head stands inner, takes⟩
  | contract found kind =>
    exact ⟨Footprint.admissible_contract, _, .refl, Or.inl ⟨rfl, .contract found kind⟩⟩
  | enum found kind =>
    obtain ⟨_, known, t, e, _, _, declares, members⟩ := whole.enumDeclared found kind
    cases known.trans (congrArg some members)
    have enough := counted e (Declarations.declarationOf?_mem declares)
    exact ⟨Footprint.admissible_enum enough, _, .refl, Or.inl ⟨rfl, .enum found kind⟩⟩
  | mapping found kind =>
    exact ⟨Footprint.admissible_word, _, .refl, Or.inr ⟨rfl, .mapping found kind⟩⟩
  | dynamicArray found kind =>
    exact ⟨Footprint.admissible_word, _, .refl, Or.inr ⟨rfl, .array found kind⟩⟩
  | fixedArray found kind _ size _ =>
    obtain ⟨admissible, own⟩ := Footprint.admissible_fixedArray size
    exact ⟨admissible, _, .refl, Or.inr ⟨own, .array found kind⟩⟩
  | struct found kind _ _ size _ =>
    obtain ⟨admissible, own⟩ := Footprint.admissible_struct size
    exact ⟨admissible, _, .refl, Or.inr ⟨own, .struct found kind⟩⟩

lemma width_eq (whole : Extracted ds c l rules fs) {q : StorageItem × Footprint}
    (mem : q ∈ l.storage.zip fs) : l.width q.1 = q.2.bytes := by
  obtain ⟨_, info, found, bytes⟩ := whole.stored q mem
  rw [Layout.width, found]
  exact bytes

/-- Each item is inside its slot or fills whole slots, behind all items before it. -/
lemma ranges (whole : Extracted ds c l rules fs) (counted : ds.EnumsCounted) :
    l.storage.Pairwise (fun a b => a.start + l.width a ≤ b.start) ∧
      ∀ item ∈ l.storage, ∃ x, ReflTransGen (l.StandsFor ds c) item.type x ∧
        (l.SharesSlots x ∧ item.offset + l.width item ≤ slotBytes ∨
          l.OwnsSlots x ∧ item.offset = 0 ∧ slotBytes ∣ l.width item) := by
  have admissible : ∀ f ∈ fs, f.Admissible := by
    intro f hf
    rw [← List.map_snd_zip (Nat.le_of_eq whole.placed.length_eq.symm)] at hf
    obtain ⟨q, hq, rfl⟩ := List.mem_map.1 hf
    exact (whole.takes counted (whole.measures (whole.stored q hq).1)).1
  obtain ⟨each, apart⟩ := whole.placed.ranges (by decide) admissible
  constructor
  · rw [← whole.placed.map_fst_zip, List.pairwise_map]
    apply apart.imp_of_mem
    intro q q' hq _ behind
    rwa [whole.width_eq hq]
  · intro item mem
    rw [← whole.placed.map_fst_zip] at mem
    obtain ⟨q, hq, rfl⟩ := List.mem_map.1 mem
    obtain ⟨_, aligned, shared⟩ := each q hq
    obtain ⟨_, x, stands, takes⟩ := whole.takes counted (whole.measures (whole.stored q hq).1)
    rw [whole.width_eq hq]
    refine ⟨x, stands, ?_⟩
    rcases takes with ⟨own, shares⟩ | ⟨own, owns⟩
    · exact Or.inl ⟨shares, shared own⟩
    · exact Or.inr ⟨owns, aligned own⟩

end Extracted

/-! ## The items of a layout -/

section

variable {ds : Declarations} {c : Contract} {decode : String → String} {l : Layout}

lemma Extraction.layout_items (ran : layout ds decode c = .ok l) :
    ∃ bases, ds.Bases c bases ∧
      List.Forall₂ (ds.ItemFor decode) l.storage (variablesOf bases) := by
  obtain ⟨bases, p, known, lineage, placed, _, rfl⟩ := layout_ok ran
  obtain ⟨items, parts, each⟩ := addVariables_items placed
  have whole : p.items = items := parts
  exact ⟨bases, Declarations.bases_of_lineage lineage, whole ▸ each⟩

/--
The items of an extracted layout are the stored variables in order. They have
registered types and follow one another without overlapping. An item that may
share its slot is inside of it, and any other one has its slots for itself.
-/
theorem extracted_items_apart (ran : layout ds decode c = .ok l)
    (counted : ds.EnumsCounted) :
    (∃ bases, ds.Bases c bases ∧
      List.Forall₂ (ds.ItemFor decode) l.storage (variablesOf bases)) ∧
    (∀ item ∈ l.storage, ∃ info, l.type? item.type = some info) ∧
    l.storage.Pairwise (fun a b => a.start + l.width a ≤ b.start) ∧
    ∀ (i : Nat) (item : StorageItem), l.storage[i]? = some item →
      ∃ x, ReflTransGen (l.StandsFor ds c) item.type x ∧
        (l.SharesSlots x ∧ item.offset + l.width item ≤ slotBytes ∨
          l.OwnsSlots x ∧ item.offset = 0 ∧
            ∀ (j : Nat) (other : StorageItem) (slot : Nat), j ≠ i →
              l.storage[j]? = some other → l.Touches item slot → ¬ l.Touches other slot) := by
  obtain ⟨rules, fs, whole⟩ := extracted ran
  obtain ⟨apart, each⟩ := whole.ranges counted
  refine ⟨layout_items ran, whole.complete.items, apart, ?_⟩
  · intro i item hi
    obtain ⟨x, stands, takes⟩ := each item (List.mem_of_getElem? hi)
    refine ⟨x, stands, takes.imp_right ?_⟩
    rintro ⟨owns, first, fills⟩
    refine ⟨owns, first, fun j other slot differ hj touches => ?_⟩
    exact Layout.alone apart hi hj differ first fills touches

end

/-! ## A contract with packed and unpacked variables -/

def rating : EnumDefinition := ⟨1, "Rating", some "Rating", ["Low", "High"], ""⟩

/-- A value type for names over texts. -/
def bookTitle : ValueTypeDefinition := ⟨3, "Title", some "Title", elementaryType 2 "string", ""⟩

/-- A contract that shelves inherit from. -/
def furniture : Contract := ⟨5, "Furniture", [5], [.variable (plainVariable 6 "sold"
  (elementaryType 7 "bool"))], ""⟩

def shelf : Contract :=
  ⟨8, "Shelf", [8, 5],
    [.variable (plainVariable 9 "rating"
      (.declared 10 1 (some "Rating") ⟨some "t_enum$_Rating_$1", some "enum Rating"⟩)),
    .variable (plainVariable 11 "title"
      (.declared 12 3 (some "Title") ⟨some "t_userDefinedValueType$_Title_$3", some "Title"⟩)),
    .variable (plainVariable 13 "height" (elementaryType 14 "uint16"))], ""⟩

def shelfProgram : Declarations :=
  ⟨[.enum rating, .valueType bookTitle, .contract furniture, .contract shelf]⟩

theorem shelf_items_apart :
    ∃ l, layout shelfProgram id shelf = .ok l ∧
      l.storage.map (fun item => (item.label, item.slot, item.offset)) =
        [("sold", 0, 0), ("rating", 0, 1), ("title", 1, 0), ("height", 2, 0)] ∧
      l.storage.Pairwise (fun a b => a.start + l.width a ≤ b.start) ∧
      ∀ (i : Nat) (item : StorageItem), l.storage[i]? = some item →
        ∃ x, ReflTransGen (l.StandsFor shelfProgram shelf) item.type x ∧
          (l.SharesSlots x ∧ item.offset + l.width item ≤ slotBytes ∨
            l.OwnsSlots x ∧ item.offset = 0 ∧
              ∀ (j : Nat) (other : StorageItem) (slot : Nat), j ≠ i →
                l.storage[j]? = some other → l.Touches item slot → ¬ l.Touches other slot) := by
  obtain ⟨l, ran, places⟩ := layout_of_check (layout shelfProgram id shelf)
    (fun l => l.storage.map (fun item => (item.label, item.slot, item.offset)) =
      [("sold", 0, 0), ("rating", 0, 1), ("title", 1, 0), ("height", 2, 0)]) (by decide +kernel)
  have counted : shelfProgram.EnumsCounted := by
    simp [Declarations.EnumsCounted, shelfProgram, rating, Numeral.bound64]
  obtain ⟨_, _, apart, each⟩ := extracted_items_apart ran counted
  exact ⟨l, ran, of_decide_eq_true places, apart, each⟩

end UpgradeSafety
