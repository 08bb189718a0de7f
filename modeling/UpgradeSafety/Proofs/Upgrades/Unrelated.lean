import UpgradeSafety.Proofs.Comparison.Unchanged
import UpgradeSafety.Proofs.Extraction.Complete
import UpgradeSafety.Proofs.Extraction.Extended
import UpgradeSafety.Proofs.Extraction.Renumbered
import UpgradeSafety.Proofs.Upgrades.Widths

/-!
# Upgrades in which only unrelated declarations are added

A contract is compared with itself after declarations were added that it has
nothing to do with. Structs, enums, contracts, mappings and arrays are compared by
what they are made of and go unnoticed however their ids change. Values are
compared by their ids alone, so a value whose id holds a name that has become a
shared one is reported, although nothing about it has changed.
-/

namespace UpgradeSafety

open Comparison Extraction

/-- Every value that is met in both layouts at once has kept its id. -/
def Layout.KeepsValues (l l' : Layout) : Prop :=
  ∀ o n a b, Lockstep l l' o n → l.type? o = some a → l'.type? n = some b → a.kind = .value →
    b.kind = .value → o = n

/-! ## Layouts that are alike -/

namespace Layout.Alike

variable {ids : TypeId → TypeId → Prop} {l l' : Layout} {o n : TypeId}

lemma counterpart (alike : l.Alike ids l') (h : ids o n) {a : TypeItem}
    (ha : l.type? o = some a) :
    ∃ b, l'.type? n = some b ∧ a.kind.Resembles ids b.kind := by
  have types := alike.types o n h
  rw [type?] at ha
  rw [ha] at types
  generalize found : l'.types.find? n = b at types
  cases types with
  | some same => exact ⟨_, found, same⟩

lemma resembles (alike : l.Alike ids l') (h : ids o n) {a b : TypeItem} {kind kind' : TypeKind}
    (ha : l.type? o = some a) (hb : l'.type? n = some b) (oldKind : a.kind = kind)
    (newKind : b.kind = kind') : kind.Resembles ids kind' := by
  obtain ⟨b', hb', same⟩ := alike.counterpart h ha
  cases Option.some.inj (hb.symm.trans hb')
  rwa [oldKind, newKind] at same

/-- What is met in both layouts at once has related ids. -/
lemma lockstep (alike : l.Alike ids l') (h : Lockstep l l' o n) : ids o n := by
  induction h with
  | item ha hb =>
    obtain ⟨hi, rfl⟩ := List.getElem?_eq_some_iff.1 ha
    obtain ⟨hi', rfl⟩ := List.getElem?_eq_some_iff.1 hb
    exact (alike.storage.get hi hi').2
  | member _ ha hb oldKind newKind hx hy ih =>
    cases alike.resembles ih ha hb oldKind newKind with
    | struct members =>
      obtain ⟨hi, rfl⟩ := List.getElem?_eq_some_iff.1 hx
      obtain ⟨hi', rfl⟩ := List.getElem?_eq_some_iff.1 hy
      exact (List.Forall₂.get members hi hi').2
  | key _ ha hb oldKind newKind ih =>
    cases alike.resembles ih ha hb oldKind newKind with
    | mapping key value => exact key
  | value _ ha hb oldKind newKind ih =>
    cases alike.resembles ih ha hb oldKind newKind with
    | mapping key value => exact value
  | element _ ha hb oldKind newKind ih =>
    cases alike.resembles ih ha hb oldKind newKind with
    | array length element => exact element

end Layout.Alike

section Comparing

variable {ds : Declarations} {c : Contract} {rules : Table SizeRule} {fs : List Footprint}
  {ids : TypeId → TypeId → Prop} {l l' : Layout} {o n : TypeId}

/-- What two entries met at once are compared by is met at once as well. -/
lemma Lockstep.inside (met : Lockstep l l' o n) {a b : TypeItem} (ha : l.type? o = some a)
    (hb : l'.type? n = some b) {related : TypeId → TypeId → Prop} {u u' : TypeId}
    (inside : Inside related (some a.kind) (some b.kind) u u') : Lockstep l l' u u' := by
  generalize oldKind : a.kind = kind, newKind : b.kind = kind' at inside
  cases inside with
  | member place =>
    obtain ⟨i, hi, here⟩ := List.mem_iff_getElem.1 place
    rw [List.getElem_zip, Prod.mk.injEq] at here
    rw [List.length_zip, Nat.lt_min] at hi
    exact .member met ha hb oldKind newKind (List.getElem?_eq_some_iff.2 ⟨hi.1, here.1⟩)
      (List.getElem?_eq_some_iff.2 ⟨hi.2, here.2⟩)
  | key => exact .key met ha hb oldKind newKind
  | value => exact .value met ha hb oldKind newKind
  | element => exact .element met ha hb oldKind newKind

/-- A rule that accepts a type and itself accepts it and one like it, if values keep their ids. -/
lemma Rule.accepted_counterpart {related wider : TypeId → TypeId → Prop} {kind kind' : TypeKind}
    (same : kind.Resembles ids kind')
    (accepted : (ofKinds o o (some kind) (some kind)).AcceptedBy false related)
    (values : kind = .value → kind' = .value → o = n)
    (inside : ∀ u u', Inside (fun _ _ => True) (some kind) (some kind') u u' → related u u →
      wider u u') : (ofKinds o n (some kind) (some kind')).AcceptedBy false wider := by
  cases same with
  | value =>
    rw [values rfl rfl]
    simp [ofKinds, AcceptedBy]
  | contract => trivial
  | openStruct => cases accepted
  | struct members =>
    refine List.forall₂_iff_zip.2 ⟨List.Forall₂.length_eq members, fun {a b} place => ?_⟩
    have labels : a.label = b.label := ((List.forall₂_iff_zip.1 members).2 place).1
    have here := (List.forall₂_same.1 accepted a (List.of_mem_zip place).1).2
    exact ⟨by simp [Comparison.sameLabel, Field.label, labels], inside _ _ (.member place) here⟩
  | enum members =>
    cases members with
    | none => cases accepted
    | some members => exact enums_accepted_iff.2 (enums_accepted_iff.1 accepted)
  | mapping key value =>
    exact ⟨inside _ _ .key accepted.1, inside _ _ (.value trivial) accepted.2⟩
  | array length element =>
    exact arrays_accepted_iff.2 ⟨rfl, inside _ _ .element (arrays_accepted_iff.1 accepted).2⟩

/-- A type that may take its own place may be taken for one like it, if values keep their ids. -/
lemma Layout.Alike.compatible (alike : l.Alike ids l') (side : Extracted ds c l rules fs)
    (keeps : l.KeepsValues l') (compatible : Compatible l l false o o)
    (met : Lockstep l l' o n) {a : TypeItem} (ha : l.type? o = some a) :
    Compatible l l' false o n := by
  refine Compatible.induction (motive := fun x y => x = y → ∀ n, Lockstep l l' x n →
    (∃ a, l.type? x = some a) → Compatible l l' false x n) ?_ compatible rfl n met ⟨a, ha⟩
  rintro x _ accepted rfl n met ⟨a, ha⟩
  obtain ⟨b, hb, same⟩ := alike.counterpart (alike.lockstep met) ha
  apply compatible_iff.2
  rw [Rule.ofTypes, Layout.kind?_of_type? ha] at accepted
  rw [Rule.ofTypes, Layout.kind?_of_type? ha, Layout.kind?_of_type? hb]
  apply Rule.accepted_counterpart same accepted (keeps x n a b met ha hb)
  rintro u u' inside ⟨_, stays⟩
  obtain ⟨_, _, here, _, member, _⟩ := inside.references
  cases here
  exact stays rfl u' (met.inside ha hb inside) (side.refers ha member)

/-- Where nothing is reported of a layout and itself, its variables may take their own places. -/
lemma compatible_self_of_silent {allow : Bool} (silent : compareLayouts l l allow = .ok [])
    {item : StorageItem} (member : item ∈ l.storage) :
    Compatible l l allow item.type item.type := by
  obtain ⟨matched, added, parts, fields⟩ := compareLayouts_silent_iff.1 silent
  have whole : l.storage = matched := by
    have lengths := congrArg List.length parts
    rw [List.length_append, ← fields.length_eq] at lengths
    have none : added = [] := List.eq_nil_of_length_eq_zero (by omega)
    rw [parts, none, List.append_nil]
  rw [← whole] at fields
  exact (List.forall₂_same.1 fields item member).2

/-- Nothing is reported of layouts that are alike, if values keep their ids. -/
lemma Layout.Alike.silent (alike : l.Alike ids l') (side : Extracted ds c l rules fs)
    (keeps : l.KeepsValues l') (silent : compareLayouts l l false = .ok []) :
    compareLayouts l l' false = .ok [] := by
  have fields : FieldsMatch (Compatible l l' false) l.storage l'.storage := by
    refine List.forall₂_iff_get.2 ⟨alike.storage.length_eq, fun i hi hi' => ?_⟩
    have here : l.storage[i]? = some (l.storage.get ⟨i, hi⟩) := List.getElem?_eq_getElem hi
    have there : l'.storage[i]? = some (l'.storage.get ⟨i, hi'⟩) := List.getElem?_eq_getElem hi'
    have labels : (l.storage.get ⟨i, hi⟩).label = (l'.storage.get ⟨i, hi'⟩).label :=
      (alike.storage.get hi hi').1
    obtain ⟨_, _, _, a, ha, _⟩ := side.item_at here
    constructor
    · simp only [sameLabel, Field.label, labels, decide_true, Bool.true_or]
    · exact alike.compatible side keeps (compatible_self_of_silent silent (List.get_mem _ _))
        (.item here there) ha
  exact compareLayouts_silent_iff.2 ⟨l'.storage, [], (List.append_nil _).symm, fields⟩

end Comparing

/-! ## Values that keep their ids -/

section

variable {ds ds' : Declarations} {name : String} {c : Contract} {l l' : Layout}

/-- Ids of one annotation that are compared as equal are equal. -/
lemma Declarations.Renames.eq_of_family (wellNamed : ds.WellNamed c) {i i' : TypeId}
    (renames : ds.Renames c ds' i i') (family : i.family = i'.family) : i = i' := by
  obtain ⟨t, raw, used, identified, rfl, rfl⟩ := renames
  rcases TypeId.canonicalWith_names (wellNamed t raw used identified) ds.distinctName?
      ds'.distinctName? with same | ⟨inside, inside'⟩
  · exact same
  · -- an address has no bracket, so neither id is read as another one
    have declared {i : TypeId} (inside : '(' ∈ i.toList) : i.family = i := by
      apply if_neg
      rintro rfl
      exact absurd inside (by decide)
    rw [Declarations.canonicalId, Declarations.canonicalId] at family ⊢
    rwa [declared inside, declared inside'] at family

/-- If nothing is reported, every value that is met in both layouts at once keeps its id. -/
lemma keepsValues_of_silent {c' : Contract} {rules rules' : Table SizeRule}
    {fs fs' : List Footprint} (alike : l.Alike (ds.Renames c ds') l')
    (wellNamed : ds.WellNamed c) (oldSide : Extracted ds c l rules fs)
    (newSide : Extracted ds' c' l' rules' fs') (silent : compareLayouts l l' false = .ok []) :
    l.KeepsValues l' := by
  intro o n a b met ha hb oldKind newKind
  obtain ⟨related, exchange⟩ := exchangeable silent
  have kinds := exchange.kindsMatch oldSide newSide (met.exchangeable exchange oldSide newSide) ha
    hb oldKind newKind
  cases kinds with
  | value family => exact (alike.lockstep met).eq_of_family wellNamed family

/--
A contract is compared with itself after declarations were added that it has
nothing to do with. If nothing is reported of the contract and itself, then nothing
is reported now exactly if every value that is met in both layouts at once has kept
its id.
-/
theorem added_declarations_silent_iff {decode decode' : String → String}
    (named : ds.contractNamed name = .ok c) (extended : ds.ExtendedBy name c ds')
    (wellNamed : ds.WellNamed c) (oldLayout : layoutNamed ds decode name = .ok l)
    (newLayout : layoutNamed ds' decode' name = .ok l')
    (silent : compareLayouts l l false = .ok []) :
    compareLayouts l l' false = .ok [] ↔ l.KeepsValues l' := by
  have contracts := extended.contractNamed
  rw [named] at contracts
  rw [layoutNamed, named] at oldLayout
  rw [layoutNamed] at newLayout
  generalize ds'.contractNamed name = found at contracts newLayout
  cases contracts with
  | left loose => exact absurd trivial loose
  | @ok _ c' hc =>
    have old : layout ds decode c = .ok l := oldLayout
    have new : layout ds' decode' c' = .ok l' := newLayout
    have both := layout_extended extended wellNamed hc decode decode'
    rw [old, new] at both
    obtain ⟨rules, fs, oldSide⟩ := extracted old
    obtain ⟨rules', fs', newSide⟩ := extracted new
    cases both with
    | ok alike =>
      constructor
      · exact keepsValues_of_silent alike wellNamed oldSide newSide
      · intro keeps
        exact alike.silent oldSide keeps silent

end

/-! ### A struct and a value type whose names become shared -/

/-- The ledger and its struct, without the struct at file level. -/
def ledgerAlone : Declarations :=
  ⟨[.struct (entryStruct 2 1 3 "Ledger.Entry"), .contract (ledger id)]⟩

/-- The annotations that the ledger uses. -/
def ledgerTypes : List TypeName :=
  [entriesType id, wordType 4,
    .declared 5 3 (some "Entry")
      (describedBy (.declared .struct entryName 3 true) "struct Ledger.Entry"), wordType 1]

lemma ledger_uses : ∀ t, ledgerAlone.Uses (ledger id) t → t ∈ ledgerTypes :=
  Declarations.uses_mem [ledger id] rfl (by decide +kernel) (by decide +kernel)

lemma ledger_extended :
    ledgerAlone.ExtendedBy "Ledger" (ledger id) (.ofCompilation (ledgerSource id)) := by
  have new : ledgerAlone.Unrelated "Ledger" (ledger id) (.struct (entryStruct 11 10 12 "Entry")) :=
    Declarations.unrelated_of_uses ledger_uses (by decide +kernel) (by decide) (by decide)
      (by decide +kernel)
  exact .added new (.kept (.same _) (.kept (.same _) .nil))

theorem ledger_beside_entry :
    ∃ l l', layoutNamed ledgerAlone id "Ledger" = .ok l ∧
      layoutNamed (.ofCompilation (ledgerSource id)) id "Ledger" = .ok l' ∧
      (l.type? "t_struct(Entry)storage").isSome = true ∧
      (l'.type? "t_struct(Ledger.Entry)storage").isSome = true ∧
      compareLayouts l l false = .ok [] ∧
      (compareLayouts l l' false = .ok [] ↔ l.KeepsValues l') ∧
      compareLayouts l l' false = .ok [] := by
  obtain ⟨l, l', ran, ran', checked⟩ := layouts_of_check (layoutNamed ledgerAlone id "Ledger")
    (layoutNamed (.ofCompilation (ledgerSource id)) id "Ledger")
    (fun old new => (old.type? "t_struct(Entry)storage").isSome &&
      (new.type? "t_struct(Ledger.Entry)storage").isSome &&
      (compareLayouts old old false).isSilent && (compareLayouts old new false).isSilent)
    (by decide +kernel)
  simp only [Bool.and_eq_true] at checked
  obtain ⟨⟨⟨entered, entered'⟩, same⟩, silent⟩ := checked
  have same := Outcome.eq_ok_nil same
  have wellNamed : ledgerAlone.WellNamed (ledger id) :=
    Declarations.wellNamed_of_uses ledger_uses (by decide +kernel)
  exact ⟨l, l', ran, ran', entered, entered', same,
    added_declarations_silent_iff rfl ledger_extended wellNamed ran ran' same,
    Outcome.eq_ok_nil silent⟩

/-- A value type for prices that is declared inside a contract. -/
def scopedPrice (type id : NodeId) (scope : String) : ValueTypeDefinition :=
  ⟨id, "Price", some (scope ++ ".Price"), elementaryType type "uint128", ""⟩

/-- A contract that declares prices of its own and keeps nothing. -/
def oracle : Contract := ⟨8, "Oracle", [8], [.valueType (scopedPrice 6 7 "Oracle")], ""⟩

/-- The market, whose prices are declared inside it, and further declarations. -/
def marketBeside (more : List Declaration) : Declarations :=
  ⟨.valueType (scopedPrice 1 2 "Market") :: .contract market :: more⟩

/-- The annotations that the market uses. -/
def marketTypes : List TypeName :=
  [.declared 3 2 (some "Price") ⟨some "t_userDefinedValueType$_Price_$2", some "Price"⟩,
    elementaryType 1 "uint128"]

lemma market_uses : ∀ t, (marketBeside []).Uses market t → t ∈ marketTypes :=
  Declarations.uses_mem [market] rfl (by decide +kernel) (by decide +kernel)

lemma market_extended : (marketBeside []).ExtendedBy "Market" market
    (marketBeside [.valueType (scopedPrice 6 7 "Oracle"), .contract oracle]) := by
  have newPrice : (marketBeside []).Unrelated "Market" market
      (.valueType (scopedPrice 6 7 "Oracle")) :=
    Declarations.unrelated_of_uses market_uses (by decide +kernel) (by decide) (by decide)
      (by decide +kernel)
  have newContract : (marketBeside []).Unrelated "Market" market (.contract oracle) :=
    Declarations.unrelated_of_uses market_uses (by decide +kernel) (by decide) (by decide)
      (by decide +kernel)
  exact .kept (.same _) (.kept (.same _) (.added newPrice (.added newContract .nil)))

/-- An unrelated contract with prices of its own is added, and the market's price is reported. -/
theorem market_beside_oracle_reported :
    ∃ l l', (marketBeside []).contractNamed "Market" = .ok market ∧
      (marketBeside []).ExtendedBy "Market" market
        (marketBeside [.valueType (scopedPrice 6 7 "Oracle"), .contract oracle]) ∧
      layoutNamed (marketBeside []) id "Market" = .ok l ∧
      layoutNamed (marketBeside [.valueType (scopedPrice 6 7 "Oracle"), .contract oracle]) id
        "Market" = .ok l' ∧
      compareLayouts l l false = .ok [] ∧ compareLayouts l l' false ≠ .ok [] := by
  obtain ⟨l, l', ran, ran', checked⟩ := layouts_of_check
    (layoutNamed (marketBeside []) id "Market")
    (layoutNamed (marketBeside [.valueType (scopedPrice 6 7 "Oracle"), .contract oracle]) id
      "Market")
    (fun old new => (compareLayouts old old false).isSilent &&
      !(compareLayouts old new false).isSilent) (by decide +kernel)
  rw [Bool.and_eq_true, Bool.not_eq_true'] at checked
  refine ⟨l, l', rfl, market_extended, ran, ran', Outcome.eq_ok_nil checked.1, fun silent => ?_⟩
  rw [silent] at checked
  cases checked.2

end UpgradeSafety
