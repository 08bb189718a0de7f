import UpgradeSafety.Proofs.Upgrades.Footprints

/-!
# Upgrades that leave every variable in its place

Where a comparison reports nothing, the variables of the old layout are where
they were and take as much room as before. The comparator looks at neither, so
this follows from the sizes of exchangeable types alone. User-defined value types
are left out, since their names do not tell their sizes.
-/

namespace UpgradeSafety

open Extraction

variable {ds ds' : Declarations} {c c' : Contract} {decode decode' : String → String}
  {old new : Layout} {allow : Bool} {related : TypeId → TypeId → Prop}

/-- An item of the old layout has a matching item at its position. -/
lemma Exchangeable.item_at (exchange : Exchangeable old new allow related) {i : Nat}
    {a : StorageItem} (ha : old.storage[i]? = some a) :
    ∃ b, new.storage[i]? = some b ∧ Comparison.sameLabel a b = true ∧ related a.type b.type := by
  obtain ⟨matched, added, parts, fields⟩ := exchange.storage
  obtain ⟨hi, rfl⟩ := List.getElem?_eq_some_iff.1 ha
  have hm : i < matched.length := fields.length_eq ▸ hi
  have here : new.storage[i]? = some matched[i] := by
    rw [parts, List.getElem?_append_left hm, List.getElem?_eq_getElem hm]
  exact ⟨matched[i], here, fields.get hi hm⟩

lemma Exchangeable.types_at (exchange : Exchangeable old new allow related) {i : Nat}
    {a b : StorageItem} (ha : old.storage[i]? = some a) (hb : new.storage[i]? = some b) :
    related a.type b.type := by
  obtain ⟨b', hb', _, types⟩ := exchange.item_at ha
  cases Option.some.inj (hb.symm.trans hb')
  exact types

/-- What an extracted layout says of the item at a position. -/
lemma Extracted.item_at {rules : Table SizeRule} {fs : List Footprint}
    (side : Extracted ds c old rules fs) {i : Nat} {a : StorageItem}
    (ha : old.storage[i]? = some a) :
    ∃ f, fs[i]? = some f ∧ HasFootprint rules a.type f ∧
      ∃ item, old.type? a.type = some item ∧ item.numberOfBytes = f.bytes := by
  obtain ⟨hi, rfl⟩ := List.getElem?_eq_some_iff.1 ha
  have hf : i < fs.length := side.placed.length_eq ▸ hi
  exact ⟨fs[i], List.getElem?_eq_getElem hf, side.stored _ (getElem_mem_zip hi hf)⟩

/-- The item that a footprint of an extracted layout belongs to. -/
lemma Extracted.footprint_at {rules : Table SizeRule} {fs : List Footprint}
    (side : Extracted ds c old rules fs) {i : Nat} {f : Footprint} (hf : fs[i]? = some f) :
    ∃ a, old.storage[i]? = some a ∧ HasFootprint rules a.type f := by
  obtain ⟨within, rfl⟩ := List.getElem?_eq_some_iff.1 hf
  have hi : i < old.storage.length := side.placed.length_eq ▸ within
  exact ⟨old.storage[i], List.getElem?_eq_getElem hi, (side.stored _ (getElem_mem_zip hi within)).1⟩

/--
If two contracts are compared without a report, and neither makes use of a
user-defined value type, then every variable of the old one has a variable at its
position in the new one, in the same slot, at the same offset and of the same size.
-/
theorem silent_upgrade_keeps_places (oldLayout : layout ds decode c = .ok old)
    (newLayout : layout ds' decode' c' = .ok new)
    (plain : ∀ t, ds.Uses c t → ¬ ds.NamesValueType t)
    (plain' : ∀ t, ds'.Uses c' t → ¬ ds'.NamesValueType t)
    (silent : compareLayouts old new allow = .ok []) :
    old.storage.length ≤ new.storage.length ∧
      ∀ (i : Nat) (a b : StorageItem), old.storage[i]? = some a → new.storage[i]? = some b →
        a.slot = b.slot ∧ a.offset = b.offset ∧
          ∃ s t, old.type? a.type = some s ∧ new.type? b.type = some t ∧
            s.numberOfBytes = t.numberOfBytes := by
  obtain ⟨rules, fs, oldSide⟩ := extracted oldLayout
  obtain ⟨rules', fs', newSide⟩ := extracted newLayout
  obtain ⟨related, exchange⟩ := Comparison.exchangeable silent
  have agree : ∀ {o n f g}, HasFootprint rules o f → HasFootprint rules' n g → related o n →
      f = g := fun has has' h =>
    exchange.footprints_agree oldSide newSide plain plain' has has' h
  constructor
  · obtain ⟨matched, added, parts, fields⟩ := exchange.storage
    have shorter := fields.length_eq
    rw [parts, List.length_append]
    omega
  · intro i a b ha hb
    have footprints : ∀ (j : Nat) (f g : Footprint), fs[j]? = some f → fs'[j]? = some g →
        f = g := by
      intro j f g hf hg
      obtain ⟨a, ha, has⟩ := oldSide.footprint_at hf
      obtain ⟨b, hb, has'⟩ := newSide.footprint_at hg
      exact agree has has' (exchange.types_at ha hb)
    have place := oldSide.placed.agree newSide.placed footprints ha hb
    obtain ⟨f, _, has, s, hs, size⟩ := oldSide.item_at ha
    obtain ⟨g, _, has', t, ht, size'⟩ := newSide.item_at hb
    have same := agree has has' (exchange.types_at ha hb)
    exact ⟨place.1, place.2, s, t, hs, ht, by rw [size, size', same]⟩

/-! ## A contract that gains a variable -/

/-- A vault that keeps a struct of two balances and then the given variables. -/
def vault (more : List Variable) : Contract :=
  ⟨9, "Vault", [9],
    (plainVariable 8 "held" (.declared 7 6 none ⟨some "t_struct$_Pair_$6_storage", none⟩) ::
      more).map .variable, ""⟩

def pairOfBalances : StructDefinition :=
  ⟨6, "Pair", none, [plainVariable 3 "left" (elementaryType 2 "uint128"),
    plainVariable 5 "right" (elementaryType 4 "uint128")], ""⟩

def vaultProgram (more : List Variable) : Declarations :=
  ⟨[.struct pairOfBalances, .contract (vault more)]⟩

def total : Variable := plainVariable 11 "total" (elementaryType 10 "uint256")

theorem vault_upgrade_keeps_places :
    ∃ old new, layout (vaultProgram []) id (vault []) = .ok old ∧
      layout (vaultProgram [total]) id (vault [total]) = .ok new ∧
      compareLayouts old new false = .ok [] ∧
      old.storage.length ≤ new.storage.length ∧
      ∀ (i : Nat) (a b : StorageItem), old.storage[i]? = some a → new.storage[i]? = some b →
        a.slot = b.slot ∧ a.offset = b.offset ∧
          ∃ s t, old.type? a.type = some s ∧ new.type? b.type = some t ∧
            s.numberOfBytes = t.numberOfBytes := by
  obtain ⟨old, new, oldLayout, newLayout, silent⟩ := layouts_of_check
    (layout (vaultProgram []) id (vault [])) (layout (vaultProgram [total]) id (vault [total]))
    (fun old new => (compareLayouts old new false).isSilent) (by decide +kernel)
  have same := Comparison.Outcome.eq_ok_nil silent
  exact ⟨old, new, oldLayout, newLayout, same,
    silent_upgrade_keeps_places oldLayout newLayout
      (fun t _ => Declarations.not_namesValueType (by decide) t)
      (fun t _ => Declarations.not_namesValueType (by decide) t) same⟩

end UpgradeSafety
