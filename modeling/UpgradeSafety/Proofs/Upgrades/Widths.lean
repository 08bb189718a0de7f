import UpgradeSafety.Proofs.Upgrades.Places

/-!
# Values that keep their width

Values are compared by their ids. The id of an elementary type tells its width,
and that of a user-defined value type does not, so a value that is met in both
layouts at once may change its width only if such a type is involved.
-/

namespace UpgradeSafety

open Extraction

/-- Types that a walk through both layouts at once meets at the same time. -/
inductive Lockstep (old new : Layout) : TypeId → TypeId → Prop where
  | item {i : Nat} {a b : StorageItem} (ha : old.storage[i]? = some a)
      (hb : new.storage[i]? = some b) : Lockstep old new a.type b.type
  | member {o n : TypeId} {a b : TypeItem} {os ns : List StructMember} {i : Nat}
      {x y : StructMember} (outer : Lockstep old new o n) (ha : old.type? o = some a)
      (hb : new.type? n = some b) (oldKind : a.kind = .struct (some os))
      (newKind : b.kind = .struct (some ns)) (hx : os[i]? = some x) (hy : ns[i]? = some y) :
      Lockstep old new x.type y.type
  | key {o n ok ov nk nv : TypeId} {a b : TypeItem} (outer : Lockstep old new o n)
      (ha : old.type? o = some a) (hb : new.type? n = some b) (oldKind : a.kind = .mapping ok ov)
      (newKind : b.kind = .mapping nk nv) : Lockstep old new ok nk
  | value {o n ok ov nk nv : TypeId} {a b : TypeItem} (outer : Lockstep old new o n)
      (ha : old.type? o = some a) (hb : new.type? n = some b) (oldKind : a.kind = .mapping ok ov)
      (newKind : b.kind = .mapping nk nv) : Lockstep old new ov nv
  | element {o n oe ne : TypeId} {ol nl : ArrayLength} {a b : TypeItem}
      (outer : Lockstep old new o n) (ha : old.type? o = some a) (hb : new.type? n = some b)
      (oldKind : a.kind = .array oe ol) (newKind : b.kind = .array ne nl) :
      Lockstep old new oe ne

/-- If both types are values, they have the same width. -/
def SameWidth (old new : Layout) (o n : TypeId) : Prop :=
  ∀ a b, old.type? o = some a → new.type? n = some b → a.kind = .value → b.kind = .value →
    a.numberOfBytes = b.numberOfBytes

/-- Whether an id is that of a user-defined value type in use. -/
def Declarations.HasValueType (ds : Declarations) (c : Contract) (id : TypeId) : Prop :=
  ∃ t, ds.Uses c t ∧ ds.idOf? t = some id ∧ ds.NamesValueType t

section Pairs

variable {ds ds' : Declarations} {c c' : Contract} {old new : Layout} {allow : Bool}
  {related : TypeId → TypeId → Prop} {rules rules' : Table SizeRule} {fs fs' : List Footprint}
  {o n : TypeId}

/-- What is met at the same time may be exchanged. -/
lemma Lockstep.exchangeable (exchange : Exchangeable old new allow related)
    (oldSide : Extracted ds c old rules fs) (newSide : Extracted ds' c' new rules' fs')
    (h : Lockstep old new o n) : related o n := by
  induction h with
  | item ha hb => exact exchange.types_at ha hb
  | member _ ha hb oldKind newKind hx hy ih =>
    cases exchange.kindsMatch oldSide newSide ih ha hb oldKind newKind with
    | struct members =>
      obtain ⟨hi, rfl⟩ := List.getElem?_eq_some_iff.1 hx
      obtain ⟨hi', rfl⟩ := List.getElem?_eq_some_iff.1 hy
      exact (members.get hi hi').2
  | key _ ha hb oldKind newKind ih =>
    cases exchange.kindsMatch oldSide newSide ih ha hb oldKind newKind with
    | mapping keys values => exact keys
  | value _ ha hb oldKind newKind ih =>
    cases exchange.kindsMatch oldSide newSide ih ha hb oldKind newKind with
    | mapping keys values => exact values
  | element _ ha hb oldKind newKind ih =>
    cases exchange.kindsMatch oldSide newSide ih ha hb oldKind newKind with
    | array elements => exact elements

/-- The width of a value is that of its footprint. -/
lemma Extracted.width_of_rule (side : Extracted ds c old rules fs) {a : TypeItem}
    (ha : old.type? o = some a) {f : Footprint} (rule : rules.find? o = some (.known f)) :
    a.numberOfBytes = f.bytes := by
  obtain ⟨g, has, width⟩ := side.sized ha
  rw [width, has.unique (.known rule)]

/-- Exchangeable values have the same width unless one of them is of a user-defined value type. -/
lemma Exchangeable.sameWidth (exchange : Exchangeable old new allow related)
    (oldSide : Extracted ds c old rules fs) (newSide : Extracted ds' c' new rules' fs')
    (h : related o n) (plain : ¬ ds.HasValueType c o) (plain' : ¬ ds'.HasValueType c' n) :
    SameWidth old new o n := by
  intro a b ha hb oldKind newKind
  have kinds := exchange.kindsMatch oldSide newSide h ha hb oldKind newKind
  obtain ⟨rule, found, t, ids, account⟩ := oldSide.accounted ha
  obtain ⟨rule', found', t', ids', account'⟩ := newSide.accounted hb
  have unnamed : ¬ ds.NamesValueType t := fun names =>
    plain ⟨t, account.used, account.named, names⟩
  have unnamed' : ¬ ds'.NamesValueType t' := fun names =>
    plain' ⟨t', account'.used, account'.named, names⟩
  have describes := account.describes
  have describes' := account'.describes
  rw [oldKind] at describes
  rw [newKind] at describes'
  cases kinds with
  | value family =>
    obtain ⟨f, rfl, rfl⟩ := value_rules_eq describes describes' unnamed unnamed' family
    rw [oldSide.width_of_rule ha found, newSide.width_of_rule hb found']

end Pairs

variable {ds ds' : Declarations} {c c' : Contract} {decode decode' : String → String}
  {old new : Layout} {allow : Bool}

/--
Where nothing is reported, all values that are met in both layouts at once have
kept their widths exactly if those of user-defined value types have.
-/
theorem silent_upgrade_keeps_widths_iff (oldLayout : layout ds decode c = .ok old)
    (newLayout : layout ds' decode' c' = .ok new)
    (silent : compareLayouts old new allow = .ok []) :
    (∀ o n, Lockstep old new o n → SameWidth old new o n) ↔
      ∀ o n, Lockstep old new o n → ds.HasValueType c o ∨ ds'.HasValueType c' n →
        SameWidth old new o n := by
  obtain ⟨rules, fs, oldSide⟩ := extracted oldLayout
  obtain ⟨rules', fs', newSide⟩ := extracted newLayout
  obtain ⟨related, exchange⟩ := Comparison.exchangeable silent
  constructor
  · intro kept o n h _
    exact kept o n h
  · intro named o n h
    by_cases either : ds.HasValueType c o ∨ ds'.HasValueType c' n
    · exact named o n h either
    · have plain := not_or.1 either
      exact exchange.sameWidth oldSide newSide (h.exchangeable exchange oldSide newSide)
        plain.1 plain.2

/-! ## A value type that is declared anew -/

/-- A value type for prices over an elementary type. -/
def price (underlying : String) : ValueTypeDefinition :=
  ⟨2, "Price", some "Price", elementaryType 1 underlying, ""⟩

/-- A market that keeps one price. -/
def market : Contract :=
  ⟨5, "Market", [5], [.variable (plainVariable 4 "bid"
    (.declared 3 2 (some "Price") ⟨some "t_userDefinedValueType$_Price_$2", some "Price"⟩))], ""⟩

def marketProgram (underlying : String) : Declarations :=
  ⟨[.valueType (price underlying), .contract market]⟩

theorem market_upgrade_widths :
    ∃ l, layout (marketProgram "uint128") id market = .ok l ∧
      compareLayouts l l false = .ok [] ∧
      ((∀ o n, Lockstep l l o n → SameWidth l l o n) ↔
        ∀ o n, Lockstep l l o n →
          (marketProgram "uint128").HasValueType market o ∨
            (marketProgram "uint128").HasValueType market n → SameWidth l l o n) := by
  obtain ⟨l, l', ran, ran', silent⟩ := layouts_of_check
    (layout (marketProgram "uint128") id market) (layout (marketProgram "uint128") id market)
    (fun old new => (compareLayouts old new false).isSilent) (by decide +kernel)
  cases Except.ok.inj (ran.symm.trans ran')
  have same := Comparison.Outcome.eq_ok_nil silent
  exact ⟨l, ran, same, silent_upgrade_keeps_widths_iff ran ran same⟩

/-- The type of the first variable. -/
def Layout.firstType? (l : Layout) : Option TypeItem :=
  l.storage[0]?.bind fun item => l.type? item.type

/-- The new layout keeps a wider value, and nothing is reported. -/
theorem market_upgrade_widens :
    ∃ old new, layout (marketProgram "uint128") id market = .ok old ∧
      layout (marketProgram "uint256") id market = .ok new ∧
      compareLayouts old new false = .ok [] ∧
      ∃ o n, Lockstep old new o n ∧
        old.type? o = some ⟨"Price", 16, .value⟩ ∧ new.type? n = some ⟨"Price", 32, .value⟩ := by
  obtain ⟨old, new, ran, ran', checked⟩ := layouts_of_check
    (layout (marketProgram "uint128") id market) (layout (marketProgram "uint256") id market)
    (fun old new => (compareLayouts old new false).isSilent &&
      old.firstType? = some ⟨"Price", 16, .value⟩ &&
      new.firstType? = some ⟨"Price", 32, .value⟩) (by decide +kernel)
  simp only [Bool.and_eq_true, decide_eq_true_eq] at checked
  obtain ⟨⟨silent, narrow⟩, wide⟩ := checked
  obtain ⟨a, ha, narrow⟩ := Option.bind_eq_some_iff.1 narrow
  obtain ⟨b, hb, wide⟩ := Option.bind_eq_some_iff.1 wide
  exact ⟨old, new, ran, ran', Comparison.Outcome.eq_ok_nil silent, a.type, b.type, .item ha hb,
    narrow, wide⟩

end UpgradeSafety
