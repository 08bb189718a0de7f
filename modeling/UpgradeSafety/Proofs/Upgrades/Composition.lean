import Mathlib.Logic.Relation
import UpgradeSafety.Proofs.Comparison.EditScripts
import UpgradeSafety.Proofs.Comparison.Kinds
import UpgradeSafety.Proofs.Comparison.Silence

/-!
# Upgrades one after the other

Two upgrades without a report make up one without a report. What may be exchanged
along both may be exchanged along their composition; this goes by induction on the
first upgrade, so that the composed comparison meets no cycle either. Types without
an entry have to be left out: one of them may be taken for an address in the middle
layout only. Names of enum members have to be distinct, since a list with a repeated
name may begin a longer one and still not be its cheapest beginning.
-/

namespace UpgradeSafety

open Relation (Comp)

/-- A layout that describes every type it refers to, with distinct names in enums and without
variables that declare an earlier label. -/
structure Layout.Composable (l : Layout) : Prop where
  items : ∀ item ∈ l.storage, l.types.contains item.type = true
  references : ∀ item ∈ l.types.values, ∀ u ∈ item.kind.references, l.types.contains u = true
  enums : ∀ item ∈ l.types.values, ∀ members ∈ item.enumMembers?, members.Nodup
  labels : ∀ item ∈ l.storage, item.renamedFrom = none

lemma FieldsMatch.comp {F : Type} [Field F] {r s : TypeId → TypeId → Prop} {os ms ns : List F}
    (kept : ∀ f ∈ ms, Field.renamedFrom f = none) (kept' : ∀ f ∈ ns, Field.renamedFrom f = none)
    (first : FieldsMatch r os ms) (second : FieldsMatch s ms ns) :
    FieldsMatch (Comp r s) os ns := by
  induction first generalizing ns with
  | nil =>
    cases second
    exact .nil
  | @cons o m os ms here _ ih =>
    cases second with
    | @cons _ n _ ns here' rest =>
      refine .cons ⟨?_, _, here.2, here'.2⟩ (ih (fun f h => kept f (.tail _ h))
        (fun f h => kept' f (.tail _ h)) rest)
      have label := here.1
      have label' := here'.1
      simp only [Comparison.sameLabel, kept m List.mem_cons_self, kept' n List.mem_cons_self]
        at label label' ⊢
      simp_all

lemma FieldsMatch.within {F : Type} [Field F] {related : TypeId → TypeId → Prop}
    {old new : List F} (P Q : TypeId → Prop) (h : FieldsMatch related old new)
    (olds : ∀ f ∈ old, P (Field.type f)) (news : ∀ f ∈ new, Q (Field.type f)) :
    FieldsMatch (fun k k' => related k k' ∧ P k ∧ Q k') old new := by
  refine List.forall₂_iff_zip.2 ⟨h.length_eq, fun place => ?_⟩
  have here := (List.forall₂_iff_zip.1 h).2 place
  have members := List.of_mem_zip place
  exact ⟨here.1, here.2, olds _ members.1, news _ members.2⟩

namespace Rule

variable {r s related : TypeId → TypeId → Prop} {o m n : TypeId} {ka kb kc : TypeKind}

lemma isAddress_iff {id : TypeId} : id.isAddress = true ↔ id.family = "t_address" := by
  rw [TypeId.isAddress, decide_eq_true_eq]

/-- Rules that accept two pairs with a type in common accept the pair of the outer types. -/
lemma ofKinds_comp (first : (ofKinds o m (some ka) (some kb)).AcceptedBy false r)
    (second : (ofKinds m n (some kb) (some kc)).AcceptedBy false s)
    (distinct : ∀ members, kc = .enum (some members) → members.Nodup) :
    (ofKinds o n (some ka) (some kc)).AcceptedBy false (Comp r s) := by
  have matches_ := kindsMatch (closed_left first) (closed_right first) first
  have matches' := kindsMatch (closed_left second) (closed_right second) second
  cases matches_ with
  | contract =>
    cases matches' with
    | contract => trivial
    | toAddress address => simp [ofKinds, address, AcceptedBy]
  | toAddress address =>
    cases matches' with
    | fromAddress _ => trivial
    | value family =>
      rw [isAddress_iff, family, ← isAddress_iff] at address
      simp [ofKinds, address, AcceptedBy]
  | fromAddress address =>
    cases matches' with
    | contract => simp [ofKinds, address, AcceptedBy]
    | toAddress address' =>
      rw [isAddress_iff] at address address'
      simp [ofKinds, address, address', AcceptedBy]
  | value family =>
    cases matches' with
    | value family' => simp [ofKinds, family, family', AcceptedBy]
    | fromAddress address =>
      rw [isAddress_iff, ← family, ← isAddress_iff] at address
      simp [ofKinds, address, AcceptedBy]
  | struct members =>
    cases matches' with
    | struct members' =>
      exact FieldsMatch.comp (fun _ _ => rfl) (fun _ _ => rfl) members members'
  | enum _ =>
    cases matches' with
    | enum _ =>
      obtain ⟨width, edits⟩ := enums_accepted_iff.1 first
      obtain ⟨width', edits'⟩ := enums_accepted_iff.1 second
      have begins := (isPrefix_of_enumEdits edits).trans (isPrefix_of_enumEdits edits')
      have silent := enumEdits_eq_nil begins (distinct _ rfl)
      exact enums_accepted_iff.2 ⟨width.trans width', silent⟩
  | mapping keys values =>
    cases matches' with
    | mapping keys' values' => exact ⟨⟨_, keys, keys'⟩, _, values, values'⟩
  | array elements =>
    cases matches' with
    | array elements' => exact arrays_accepted_iff.2 ⟨rfl, _, elements, elements'⟩

end Rule

namespace Layout.Composable

variable {l : Layout} (tidy : l.Composable) {t u : TypeId}

include tidy

lemma refers (h : l.Refers t u) : l.types.contains u = true := by
  obtain ⟨item, found, inside⟩ := h
  exact tidy.references item (Table.mem_values_of_find? found) u inside

lemma distinct {item : TypeItem} {members : List String} (found : l.type? t = some item)
    (kind : item.kind = .enum (some members)) : members.Nodup := by
  refine tidy.enums item (Table.mem_values_of_find? found) members ?_
  rw [TypeItem.enumMembers?, kind]
  rfl

end Layout.Composable

namespace Comparison

variable {a b c : Layout}

/-- The types of an entry in the middle layout may be exchanged along both upgrades. -/
lemma Compatible.comp (ha : a.Composable) (hb : b.Composable) (hc : c.Composable) {o m n : TypeId}
    (first : Compatible a b false o m) (second : Compatible b c false m n)
    (inA : a.types.contains o = true) (inB : b.types.contains m = true)
    (inC : c.types.contains n = true) : Compatible a c false o n := by
  refine Compatible.induction (motive := fun o m => ∀ n, Compatible b c false m n →
    a.types.contains o = true → b.types.contains m = true → c.types.contains n = true →
      Compatible a c false o n) ?_ first n second inA inB inC
  intro o m accepted n second inA inB inC
  obtain ⟨itemA, foundA⟩ := Table.contains_iff.1 inA
  obtain ⟨itemB, foundB⟩ := Table.contains_iff.1 inB
  obtain ⟨itemC, foundC⟩ := Table.contains_iff.1 inC
  have kindA := Layout.kind?_of_type? foundA
  have kindB := Layout.kind?_of_type? foundB
  have kindC := Layout.kind?_of_type? foundC
  replace accepted := accepted.asking
  have accepted' := (compatible_iff.1 second).asking
  rw [Rule.ofTypes, kindA, kindB] at accepted
  rw [Rule.ofTypes, kindB, kindC] at accepted'
  have composed := Rule.ofKinds_comp accepted accepted' fun members => hc.distinct foundC
  rw [compatible_iff, Rule.ofTypes, kindA, kindC]
  refine composed.mono ?_
  rintro k k'' ⟨k', ⟨⟨-, ih⟩, asks⟩, inside, asks'⟩
  rw [← kindA, ← kindB] at asks
  rw [← kindB, ← kindC] at asks'
  obtain ⟨refersA, refersB⟩ := refers_of_asks asks
  obtain ⟨-, refersC⟩ := refers_of_asks asks'
  exact ih k'' inside (ha.refers refersA) (hb.refers refersB) (hc.refers refersC)

end Comparison

/--
If nothing is reported between a layout and a second one, nor between the second and a
third one, then nothing is reported between the first and the third, in particular no
recursion.
-/
theorem silent_upgrades_compose {a b c : Layout} (ha : a.Composable) (hb : b.Composable)
    (hc : c.Composable) (first : compareLayouts a b false = .ok [])
    (second : compareLayouts b c false = .ok []) : compareLayouts a c false = .ok [] := by
  obtain ⟨ms, addedB, partsB, fields⟩ := Comparison.compareLayouts_silent_iff.1 first
  obtain ⟨ns, addedC, partsC, fields'⟩ := Comparison.compareLayouts_silent_iff.1 second
  have fromB : ∀ item ∈ ms, item ∈ b.storage := fun item h => partsB ▸ List.mem_append_left _ h
  have fromC : ∀ item ∈ ns.take ms.length, item ∈ c.storage := fun item h =>
    partsC ▸ List.mem_append_left _ (List.mem_of_mem_take h)
  have outer : FieldsMatch (Comparison.Compatible b c false) ms (ns.take ms.length) := by
    have cut := List.forall₂_take ms.length fields'
    rwa [partsB, List.take_left' rfl] at cut
  have inB : ∀ item ∈ ms, b.types.contains (Field.type item) = true :=
    fun item h => hb.items item (fromB item h)
  have inC : ∀ item ∈ ns.take ms.length, c.types.contains (Field.type item) = true :=
    fun item h => hc.items item (fromC item h)
  have composed := FieldsMatch.comp (fun item h => hb.labels item (fromB item h))
    (fun item h => hc.labels item (fromC item h))
    (fields.within (a.types.contains · = true) (b.types.contains · = true) ha.items inB)
    (outer.within (b.types.contains · = true) (c.types.contains · = true) inB inC)
  rw [Comparison.compareLayouts_silent_iff]
  refine ⟨ns.take ms.length, ns.drop ms.length ++ addedC, ?_, composed.mono ?_⟩
  · rw [← List.append_assoc, List.take_append_drop, partsC]
  · rintro x z ⟨y, ⟨there, inA, inB⟩, back, -, inC⟩
    exact there.comp ha hb hc back inA inB inC

/-- An escrow with an owner, its states and the deposits of accounts, followed by more variables. -/
def escrow (owner : TypeId) (kind : TypeKind) (states : List String) (more : List StorageItem) :
    Layout :=
  ⟨[⟨"Escrow", "owner", owner, 0, 0, none, none⟩,
    ⟨"Escrow", "state", "t_enum(State)", 0, 20, none, none⟩,
    ⟨"Escrow", "deposits", "t_mapping(t_address,t_struct(Deposit)storage)", 1, 0, none, none⟩] ++
      more,
   Table.ofList [("t_address", ⟨"address", 20, .value⟩), ("t_uint256", ⟨"uint256", 32, .value⟩),
    (owner, ⟨"owner", 20, kind⟩), ("t_enum(State)", ⟨"enum State", 1, .enum (some states)⟩),
    ("t_struct(Deposit)storage", ⟨"struct Deposit", 32,
      .struct (some [⟨"amount", "t_uint256"⟩])⟩),
    ("t_mapping(t_address,t_struct(Deposit)storage)", ⟨"mapping(address => struct Deposit)", 32,
      .mapping "t_address" "t_struct(Deposit)storage"⟩)]⟩

/-- The escrow of a contract, of an address, and of a payable address with one more variable. -/
def escrows : Layout × Layout × Layout :=
  (escrow "t_contract(Safe)" .contract ["Open", "Closed"] [],
    escrow "t_address" .value ["Open", "Closed", "Frozen"] [],
    escrow "t_address_payable" .value ["Open", "Closed", "Frozen", "Void"]
      [⟨"Escrow", "total", "t_uint256", 2, 0, none, none⟩])

theorem escrow_upgrades_compose :
    compareLayouts escrows.1 escrows.2.1 false = .ok [] ∧
      compareLayouts escrows.2.1 escrows.2.2 false = .ok [] ∧
      compareLayouts escrows.1 escrows.2.2 false = .ok [] := by
  have first : compareLayouts escrows.1 escrows.2.1 false = .ok [] :=
    Comparison.Outcome.eq_ok_nil (by decide +kernel)
  have second : compareLayouts escrows.2.1 escrows.2.2 false = .ok [] :=
    Comparison.Outcome.eq_ok_nil (by decide +kernel)
  have composed := silent_upgrades_compose
    ⟨by decide +kernel, by decide +kernel, by decide +kernel, by decide +kernel⟩
    ⟨by decide +kernel, by decide +kernel, by decide +kernel, by decide +kernel⟩
    ⟨by decide +kernel, by decide +kernel, by decide +kernel, by decide +kernel⟩ first second
  exact ⟨first, second, composed⟩

end UpgradeSafety
