import UpgradeSafety.Comparison.Rule
import UpgradeSafety.Proofs.Tables

/-!
# Types made of other types

What a type refers to is told by its entry alone: the kinds that ids tell of types
without an entry refer to nothing.
-/

namespace UpgradeSafety

/-- The types that a type of this kind is made of. -/
def TypeKind.references : TypeKind → List TypeId
  | .value => []
  | .contract => []
  | .struct members => (members.getD []).map StructMember.type
  | .enum _ => []
  | .mapping k v => [k, v]
  | .array element _ => [element]

/-- A type is made of another one. -/
def Layout.Refers (l : Layout) (t u : TypeId) : Prop :=
  ∃ item, l.type? t = some item ∧ u ∈ item.kind.references

lemma TypeId.impliedKind?_references {id : TypeId} {kind : TypeKind}
    (h : id.impliedKind? = some kind) : kind.references = [] := by
  unfold TypeId.impliedKind? at h
  simp only at h
  split at h
  · cases h
    rfl
  · split at h
    · cases h
      rfl
    · split at h
      · cases h
        rfl
      · cases h

lemma Layout.kind?_of_type? {l : Layout} {id : TypeId} {item : TypeItem}
    (h : l.type? id = some item) : l.kind? id = some item.kind := by
  rw [Layout.kind?, h]

lemma Layout.refers_of_kind? {l : Layout} {t u : TypeId} {kind : TypeKind}
    (h : l.kind? t = some kind) (inside : u ∈ kind.references) : l.Refers t u := by
  unfold Layout.kind? at h
  cases found : l.type? t with
  | some item =>
    rw [found] at h
    cases h
    exact ⟨item, found, inside⟩
  | none =>
    rw [found] at h
    rw [TypeId.impliedKind?_references h] at inside
    cases inside

lemma Layout.Refers.registered {l : Layout} {t u : TypeId} (h : l.Refers t u) :
    t ∈ l.types.keys :=
  let ⟨_, found, _⟩ := h
  Table.mem_keys_of_find? found

end UpgradeSafety
