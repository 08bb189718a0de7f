import UpgradeSafety.Proofs.Comparison.Accepted

/-!
# Kinds that match

When a type of one kind may take the place of a type of another kind. Where the
kinds of both types are known, a rule accepts them only if they match.
-/

namespace UpgradeSafety

/--
Two kinds match for the types `o` and `n`, provided that the related types inside
them may be exchanged.
-/
inductive KindsMatch (related : TypeId → TypeId → Prop) (o n : TypeId) :
    TypeKind → TypeKind → Prop where
  | contract : KindsMatch related o n .contract .contract
  | toAddress (address : n.isAddress = true) : KindsMatch related o n .contract .value
  | fromAddress (address : o.isAddress = true) : KindsMatch related o n .value .contract
  | value (family : o.family = n.family) : KindsMatch related o n .value .value
  | struct {os ns : List StructMember} (members : FieldsMatch related os ns) :
      KindsMatch related o n (.struct (some os)) (.struct (some ns))
  | enum {os ns : List String}
      (width : Footprint.enumBytes os.length = Footprint.enumBytes ns.length) :
      KindsMatch related o n (.enum (some os)) (.enum (some ns))
  | mapping {ok ov nk nv : TypeId} (keys : related ok nk) (values : related ov nv) :
      KindsMatch related o n (.mapping ok ov) (.mapping nk nv)
  | array {oe ne : TypeId} {length : ArrayLength} (elements : related oe ne) :
      KindsMatch related o n (.array oe length) (.array ne length)

/-- A kind whose members are not known. -/
def TypeKind.isOpen : TypeKind → Bool
  | .struct none => true
  | .enum none => true
  | _ => false

namespace Rule

variable {allow : Bool} {related : TypeId → TypeId → Prop} {o n : TypeId}

lemma arrays_accepted_iff {oe ne : TypeId} {ol nl : ArrayLength} :
    (arrays oe ne ol nl).AcceptedBy allow related ↔ ol = nl ∧ related oe ne := by
  cases ol with
  | dynamic =>
    cases nl with
    | dynamic => exact ⟨fun h => ⟨rfl, h⟩, And.right⟩
    | fixed m => exact ⟨False.elim, fun h => nomatch h.1⟩
  | fixed l =>
    cases nl with
    | dynamic => exact ⟨False.elim, fun h => nomatch h.1⟩
    | fixed m =>
      simp only [arrays, ArrayLength.fixed.injEq]
      rcases Nat.lt_trichotomy l m with grows | same | shrinks
      · rw [if_neg (Nat.lt_asymm grows), if_pos grows]
        exact ⟨False.elim, fun h => absurd h.1 (Nat.ne_of_lt grows)⟩
      · rw [if_neg (by omega), if_neg (by omega)]
        exact ⟨fun h => ⟨same, h⟩, And.right⟩
      · rw [if_pos shrinks]
        exact ⟨False.elim, fun h => absurd h.1 (Nat.ne_of_gt shrinks)⟩

lemma enums_accepted_iff {os ns : List String} : (enums os ns).AcceptedBy allow related ↔
    Footprint.enumBytes os.length = Footprint.enumBytes ns.length ∧ enumEdits os ns = [] := by
  rw [enums]
  by_cases width : Footprint.enumBytes os.length = Footprint.enumBytes ns.length
  · rw [if_pos width]
    cases edits : enumEdits os ns with
    | nil => exact ⟨fun _ => ⟨width, rfl⟩, fun _ => trivial⟩
    | cons edit edits => exact ⟨False.elim, fun h => nomatch h.2⟩
  · rw [if_neg width]
    exact ⟨False.elim, fun h => width h.1⟩

lemma closed_left {a b : TypeKind}
    (h : (ofKinds o n (some a) (some b)).AcceptedBy false related) : a.isOpen = false := by
  cases a with
  | struct os =>
    cases os with
    | none => cases b <;> cases h
    | some _ => rfl
  | enum os =>
    cases os with
    | none => cases b <;> cases h
    | some _ => rfl
  | _ => rfl

lemma closed_right {a b : TypeKind}
    (h : (ofKinds o n (some a) (some b)).AcceptedBy false related) : b.isOpen = false := by
  cases b with
  | struct ns =>
    cases ns with
    | none =>
      cases a with
      | struct os => cases os <;> cases h
      | enum os => cases os <;> cases h
      | _ => cases h
    | some _ => rfl
  | enum ns =>
    cases ns with
    | none =>
      cases a with
      | struct os => cases os <;> cases h
      | enum os => cases os <;> cases h
      | _ => cases h
    | some _ => rfl
  | _ => rfl

/-- Known kinds that a rule accepts match. -/
lemma kindsMatch {a b : TypeKind} (ha : a.isOpen = false) (hb : b.isOpen = false)
    (h : (ofKinds o n (some a) (some b)).AcceptedBy allow related) :
    KindsMatch related o n a b := by
  cases a with
  | value =>
    cases b with
    | value =>
      by_cases family : o.family = n.family
      · exact .value family
      · simp only [ofKinds, if_neg family] at h
        exact h.elim
    | contract =>
      by_cases address : o.isAddress = true
      · exact .fromAddress address
      · simp only [ofKinds, if_neg address] at h
        exact h.elim
    | _ => exact h.elim
  | contract =>
    cases b with
    | contract => exact .contract
    | value =>
      by_cases address : n.isAddress = true
      · exact .toAddress address
      · simp only [ofKinds, if_neg address] at h
        exact h.elim
    | _ => exact h.elim
  | struct os =>
    cases os with
    | none => cases ha
    | some os =>
      cases b with
      | struct ns =>
        cases ns with
        | none => cases hb
        | some ns => exact .struct h
      | _ => exact h.elim
  | enum os =>
    cases os with
    | none => cases ha
    | some os =>
      cases b with
      | enum ns =>
        cases ns with
        | none => cases hb
        | some ns => exact .enum (enums_accepted_iff.1 h).1
      | _ => exact h.elim
  | mapping ok ov =>
    cases b with
    | mapping nk nv => exact .mapping h.1 h.2
    | _ => exact h.elim
  | array oe ol =>
    cases b with
    | array ne nl =>
      obtain ⟨same, elements⟩ := arrays_accepted_iff.1 h
      exact same ▸ .array elements
    | _ => exact h.elim

end Rule

end UpgradeSafety
