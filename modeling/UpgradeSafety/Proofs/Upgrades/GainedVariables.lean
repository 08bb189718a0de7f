import UpgradeSafety.Proofs.Extraction.Prefixes
import UpgradeSafety.Proofs.Upgrades.Appending

/-!
# Upgrades to contracts that gain variables

When a contract gets variables behind everything that it declares and can still be laid
out, its storage so far and the types of it stay as they are. An upgrade to it reports
nothing, or fails since a type is made of itself.
-/

namespace UpgradeSafety

open Extraction
open Relation (ReflTransGen TransGen)

/-! ## Layouts that begin alike -/

namespace Layout

variable {ds : Declarations} {c : Contract} {l new : Layout} {t : TypeId}

/-- The storage of a layout goes on from that of another one, apart from the sources. -/
def Continues (new l : Layout) : Prop :=
  l.storage.map StorageItem.withoutSource <+: new.storage.map StorageItem.withoutSource

/-- Some type of a layout is made of itself. -/
def Cyclic (l : Layout) : Prop := ∃ t, l.Holds t ∧ TransGen l.Refers t t

/-- Everything that a complete layout holds has an entry in it. -/
lemma Complete.entry (whole : l.Complete ds c) (held : l.Holds t) :
    ∃ info, l.type? t = some info :=
  held.entered whole.items whole.references

/-- What a complete layout holds has no unknown members. -/
lemma Complete.known (whole : l.Complete ds c) (held : l.Holds t) : l.Known t := by
  obtain ⟨info, found⟩ := whole.entry held
  rw [Known, kind?_of_type? found]
  rintro _ ⟨⟩
  cases kind : info.kind with
  | struct members =>
    obtain ⟨_, rfl, _⟩ := whole.structs found kind
    rfl
  | enum members =>
    obtain ⟨_, rfl, _⟩ := whole.enums found kind
    rfl
  | value => rfl
  | contract => rfl
  | mapping key value => rfl
  | array element length => rfl

/-- The new items at the old places have the old labels and types. -/
lemma Continues.parts (continues : new.Continues l) :
    ∃ matched added, new.storage = matched ++ added ∧ FieldsMatch Eq l.storage matched := by
  obtain ⟨rest, parts⟩ := continues
  obtain ⟨matched, added, whole, same, -⟩ := List.map_eq_append_iff.1 parts.symm
  refine ⟨matched, added, whole, ?_⟩
  have alike : List.Forall₂ Eq (l.storage.map StorageItem.withoutSource)
      (matched.map StorageItem.withoutSource) := by
    rw [List.forall₂_eq_eq_eq, same]
  rw [List.forall₂_map_left_iff, List.forall₂_map_right_iff] at alike
  refine alike.imp fun a b sourceless => ?_
  obtain ⟨-, label, type, -⟩ := StorageItem.mk.inj sourceless
  exact ⟨by simp [Comparison.sameLabel, Field.label, label], type⟩

/-- Every old item has a new one of its type at its place. -/
lemma Continues.place (continues : new.Continues l) {a : StorageItem} (member : a ∈ l.storage) :
    ∃ b, (a, b) ∈ l.storage.zip new.storage ∧ a.type = b.type := by
  obtain ⟨matched, added, whole, fields⟩ := continues.parts
  obtain ⟨i, hi, rfl⟩ := List.mem_iff_getElem.1 member
  have within : i < matched.length := fields.length_eq ▸ hi
  refine ⟨matched[i], ?_, fields.asked (getElem_mem_zip hi within)⟩
  have further : i < new.storage.length := by
    rw [whole, List.length_append]
    omega
  have there : new.storage[i] = matched[i] := by
    simp only [whole, List.getElem_append_left within]
  rw [← there]
  exact getElem_mem_zip hi further

end Layout

namespace Comparison

variable {l new : Layout} {allow : Bool} {t u : TypeId}

section

variable (agrees : new.AgreesWith l)

include agrees

/-- A type that may take its own place leads on to all that it is made of. -/
lemma leads_of_compatible (held : l.Holds t) (compatible : Compatible l new allow t t)
    (refers : l.Refers t u) : LeadsTo l new allow (t, t) (u, u) := by
  have unchanged : l.AgreesWith l := fun _ _ => rfl
  refine (leadsTo_self_iff unchanged agrees held).2 ⟨rfl, refers, fun key value mapping => ?_⟩
  have inside : l.Refers t key := Layout.refers_of_kind? mapping List.mem_cons_self
  exact Or.inr (refers_compatible unchanged agrees held compatible inside)

/-- A type that may take its own place is not made of itself. -/
lemma not_cyclic_of_compatible (held : l.Holds t) (compatible : Compatible l new allow t t) :
    ¬ TransGen l.Refers t t := by
  have unchanged : l.AgreesWith l := fun _ _ => rfl
  have path : ∀ {u}, TransGen l.Refers t u → TransGen (LeadsTo l new allow) (t, t) (u, u) := by
    intro u inside
    induction inside with
    | single refers => exact .single (leads_of_compatible agrees held compatible refers)
    | tail before refers ih =>
      have here := inside_compatible unchanged agrees held compatible before.to_reflTransGen
      have there := held.trans before.to_reflTransGen
      exact ih.tail (leads_of_compatible agrees there here refers)
  exact fun cycle => not_cyclic_of_ends (p := (t, t)) (compatible "") (path cycle)

variable (known : ∀ t, l.Holds t → l.Known t) (continues : new.Continues l)

include known continues

/-- Where a comparison ends, every type of the old storage may take its own place. -/
lemma compatible_of_ended {ops : List ItemOperation}
    (ended : compareLayouts l new allow = .ok ops) {a : StorageItem} (member : a ∈ l.storage) :
    Compatible l new allow a.type a.type := by
  have unchanged : l.AgreesWith l := fun _ _ => rfl
  rw [compareLayouts_eq_plain] at ended
  obtain ⟨found, fields, -⟩ := plainDifferences_ok ended
  obtain ⟨b, place, type⟩ := continues.place member
  obtain ⟨change, run⟩ := plainFields_asked fields place
  have held := Layout.Holds.of_mem member
  change plainTypes l new allow [] b.label a.type b.type = .ok change at run
  rw [← type] at run
  have silent := no_change_of_transparent unchanged agrees held
    (held.transparent (Or.inr known)) run
  exact compatible_of_ends (silent ▸ run)

/--
A comparison with a layout that goes on from the old one and agrees with it on its types
reports nothing if no type is made of itself, and fails otherwise.
-/
lemma silent_or_cyclic :
    compareLayouts l new allow = .ok [] ∧ ¬ l.Cyclic ∨
      (∃ cause, compareLayouts l new allow = .error cause) ∧ l.Cyclic := by
  have unchanged : l.AgreesWith l := fun _ _ => rfl
  by_cases cyclic : l.Cyclic
  · refine Or.inr ⟨?_, cyclic⟩
    cases run : compareLayouts l new allow with
    | error cause => exact ⟨cause, rfl⟩
    | ok ops =>
      obtain ⟨t, ⟨item, member, inside⟩, cycle⟩ := cyclic
      have held := Layout.Holds.of_mem member
      have start := compatible_of_ended agrees known continues run member
      have here := inside_compatible unchanged agrees held start inside
      exact absurd cycle (not_cyclic_of_compatible agrees (held.trans inside) here)
  · refine Or.inl ⟨?_, cyclic⟩
    obtain ⟨matched, added, whole, fields⟩ := continues.parts
    apply compareLayouts_of_appends whole
    refine List.forall₂_iff_zip.2 ⟨fields.length_eq, fun {a b} place => ?_⟩
    obtain ⟨label, type⟩ := (List.forall₂_iff_zip.1 fields).2 place
    have acyclic : ∀ t, l.Holds t → ¬ TransGen l.Refers t t :=
      fun t held cycle => cyclic ⟨t, held, cycle⟩
    have held := Layout.Holds.of_mem (List.of_mem_zip place).1
    exact ⟨label, type ▸ compatible_of_acyclic unchanged agrees (Or.inr known) acyclic held⟩

end

end Comparison

/-! ## The upgrade -/

/--
If a contract that has gained variables behind its own can be laid out, then so can the
contract itself. The storage of the former goes on from that of the latter, no entry is
changed, and the upgrade reports nothing unless a type is made of itself, where it fails.
-/
theorem gained_variables_keep_places {ds ds' : Declarations} {c : Contract}
    {more : List Variable} (gains : ds.Gains c more ds') (listed : c.ListedFirst)
    (decode decode' : String → String) {l' : Layout}
    (ran : layout ds' decode' (c.withMore more) = .ok l') :
    ∃ l, layout ds decode c = .ok l ∧ l'.Continues l ∧
      (∀ id info, l.type? id = some info → l'.type? id = some info) ∧
      (compareLayouts l l' false = .ok [] ∧ ¬ l.Cyclic ∨
        (∃ cause, compareLayouts l l' false = .error cause) ∧ l.Cyclic) := by
  obtain ⟨l, before, continues, entries⟩ := gains.layout_ok listed decode ran
  obtain ⟨rules, fs, extracted⟩ := extracted before
  have whole := extracted.complete
  have agrees : l'.AgreesWith l := by
    intro t held
    obtain ⟨info, found⟩ := whole.entry held
    rw [found, entries found]
  exact ⟨l, before, continues, fun _ _ => entries,
    Comparison.silent_or_cyclic agrees (fun _ held => whole.known held) continues⟩

/-! ### Savings that can be paused -/

def ownable : Contract :=
  ⟨1, "Ownable", [1], [.variable (plainVariable 2 "owner" (elementaryType 3 "address"))], ""⟩

def deposit : StructDefinition :=
  ⟨4, "Deposit", some "Savings.Deposit", [plainVariable 5 "amount" (elementaryType 6 "uint256"),
    plainVariable 7 "locked" (elementaryType 8 "bool")], ""⟩

def depositType (id : NodeId) : TypeName :=
  .declared id 4 (some "Deposit")
    ⟨some "t_struct$_Deposit_$4_storage", some "struct Savings.Deposit"⟩

/-- A contract with an owner that keeps the deposits of accounts. -/
def savings : Contract :=
  ⟨9, "Savings", [9, 1],
    [.variable (plainVariable 10 "open" (elementaryType 11 "bool")),
    .struct deposit,
    .variable (plainVariable 12 "deposits"
      (.mapping 13 (elementaryType 14 "address") (depositType 15)
        ⟨some "t_mapping$_t_address_$_t_struct$_Deposit_$4_storage_$",
          some "mapping(address => struct Savings.Deposit)"⟩))], ""⟩

/-- A flag, the last deposit, and a type of variables that savings have not had before. -/
def laterVariables : List Variable :=
  [plainVariable 16 "paused" (elementaryType 17 "bool"),
    plainVariable 18 "last" (depositType 19),
    plainVariable 20 "fee" (elementaryType 21 "uint64")]

/-- The program that the savings belong to. -/
def savingsSource (c : Contract) : Compilation :=
  ⟨.ofList [("Savings.sol", ⟨0, 22, "Savings.sol", [.contract ownable, .contract c]⟩)]⟩

theorem savings_gain_variables :
    ∃ l l', layout (.ofCompilation (savingsSource savings)) id savings = .ok l ∧
      layout (.ofCompilation (savingsSource (savings.withMore laterVariables))) id
        (savings.withMore laterVariables) = .ok l' ∧
      l'.storage.map (fun item => (item.label, item.slot, item.offset)) =
        [("owner", 0, 0), ("open", 0, 20), ("deposits", 1, 0), ("paused", 2, 0), ("last", 3, 0),
          ("fee", 5, 0)] ∧
      l'.Continues l ∧ (∀ id info, l.type? id = some info → l'.type? id = some info) ∧
      compareLayouts l l' false = .ok [] := by
  obtain ⟨l, l', ran, ran', checked⟩ := layouts_of_check
    (layout (.ofCompilation (savingsSource savings)) id savings)
    (layout (.ofCompilation (savingsSource (savings.withMore laterVariables))) id
      (savings.withMore laterVariables))
    (fun l l' => l'.storage.map (fun item => (item.label, item.slot, item.offset)) =
        [("owner", 0, 0), ("open", 0, 20), ("deposits", 1, 0), ("paused", 2, 0), ("last", 3, 0),
          ("fee", 5, 0)] ∧
      ∀ entry ∈ l.types.entries, ∀ u ∈ entry.2.kind.references, u.length < entry.1.length)
    (by decide +kernel)
  obtain ⟨places, falls⟩ := of_decide_eq_true checked
  have gains : (savingsSource savings).Gains savings laterVariables
      (savingsSource (savings.withMore laterVariables)) :=
    .cons (.cons (.same _) (.cons .contract .nil)) .nil
  have listed : savings.ListedFirst := Or.inr ⟨[1], rfl, by decide⟩
  obtain ⟨_, before, continues, entries, outcome⟩ :=
    gained_variables_keep_places gains.declarations listed id id ran'
  cases ran.symm.trans before
  have acyclic : ¬ l.Cyclic := fun ⟨_, _, cycle⟩ => Layout.not_cyclic_of_lengths falls cycle
  have silent := (outcome.resolve_right fun failed => acyclic failed.2).1
  exact ⟨l, l', ran, ran', places, continues, entries, silent⟩

end UpgradeSafety
