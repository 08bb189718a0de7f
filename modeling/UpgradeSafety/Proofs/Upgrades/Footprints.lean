import UpgradeSafety.Proofs.Comparison.Kinds
import UpgradeSafety.Proofs.Extraction.Layouts
import UpgradeSafety.Proofs.Extraction.SizeRules

/-!
# Footprints of exchangeable types

Types of two extracted layouts that may be exchanged have size rules of the same
form, and so the same footprints. The exception are user-defined value types:
they are exchanged by their names, which say nothing about their sizes.
-/

namespace UpgradeSafety

variable {related : TypeId → TypeId → Prop} {o n : TypeId}

/-! ## Value types -/

/-- The size of an elementary type is that of the type it is compared by. -/
lemma ofElementary?_family (id : TypeId) :
    Footprint.ofElementary? id.family = Footprint.ofElementary? id := by
  rw [TypeId.family]
  split
  · next h => rw [h]; decide
  · rfl

lemma ofElementary?_address {id : TypeId} (h : id.isAddress = true) :
    Footprint.ofElementary? id = some .contract := by
  have family : id.family = "t_address" := by simpa [TypeId.isAddress] using h
  rw [← ofElementary?_family, family]
  decide

/-- A value is elementary, or of a user-defined value type and sized like the type inside. -/
lemma Describes.value_rule {ds : Declarations} {id : TypeId} {t : TypeName} {ids : List TypeId}
    {rule : SizeRule} (h : Describes id t (ds.declarationOf? t) ids .value rule) :
    (∃ f, Footprint.ofElementary? id = some f ∧ rule = .known f) ∨
      ∃ definition x, ds.declarationOf? t = some (.valueType definition) ∧
        ds.inside t = [definition.underlying] ∧ ids = [x] ∧ rule = .sameAs x := by
  generalize declares : ds.declarationOf? t = d at h
  cases h with
  | elementary size => exact Or.inl ⟨_, size, rfl⟩
  | function size => exact Or.inl ⟨_, size, rfl⟩
  | valueType definition underlying =>
    refine Or.inr ⟨definition, underlying, rfl, ?_, rfl, rfl⟩
    rw [Declarations.inside, declares]
    rfl

lemma Describes.elementary_rule {ds : Declarations} {id : TypeId} {t : TypeName}
    {ids : List TypeId} {rule : SizeRule}
    (h : Describes id t (ds.declarationOf? t) ids .value rule) (plain : ¬ ds.NamesValueType t) :
    ∃ f, Footprint.ofElementary? id = some f ∧ rule = .known f := by
  refine h.value_rule.resolve_right ?_
  rintro ⟨definition, _, declares, _⟩
  exact plain ⟨definition, declares⟩

/-- The members of an extracted struct or enum are known. -/
lemma Describes.kind_closed {id : TypeId} {t : TypeName} {d : Option Declaration}
    {ids : List TypeId} {kind : TypeKind} {rule : SizeRule} (h : Describes id t d ids kind rule) :
    kind.isOpen = false := by
  cases h <;> rfl

/-- The size rule that a kind comes with; none where the id or the declaration decides. -/
def TypeKind.sizeRule? : TypeKind → Option SizeRule
  | .value => none
  | .contract => some (.known .contract)
  | .struct members => members.map fun members => .struct (members.map StructMember.type)
  | .enum members => members.map fun members =>
    .known (.packed (Footprint.enumBytes members.length))
  | .mapping _ _ => some (.known .word)
  | .array _ .dynamic => some (.known .word)
  | .array element (.fixed length) => some (.fixedArray element length)

lemma Describes.sizeRule {id : TypeId} {t : TypeName} {d : Option Declaration}
    {ids : List TypeId} {kind : TypeKind} {rule : SizeRule} (h : Describes id t d ids kind rule)
    (notValue : kind ≠ .value) : kind.sizeRule? = some rule := by
  cases h <;> first | rfl | exact absurd rfl notValue

lemma FieldsMatch.types {os ns : List StructMember} (h : FieldsMatch related os ns) :
    List.Forall₂ related (os.map StructMember.type) (ns.map StructMember.type) :=
  List.forall₂_map_left_iff.2 (List.forall₂_map_right_iff.2 (h.imp fun _ _ member => member.2))

section Pairs

variable {ds ds' : Declarations} {c c' : Contract} {old new : Layout} {allow : Bool}
  {rules rules' : Table SizeRule} {fs fs' : List Footprint}

/-- The kinds of exchangeable types match. -/
lemma Exchangeable.kindsMatch (exchange : Exchangeable old new allow related)
    (oldSide : Extracted ds c old rules fs) (newSide : Extracted ds' c' new rules' fs')
    (h : related o n) {a b : TypeItem} (ha : old.type? o = some a) (hb : new.type? n = some b)
    {x y : TypeKind} (oldKind : a.kind = x) (newKind : b.kind = y) :
    KindsMatch related o n x y := by
  subst oldKind newKind
  obtain ⟨_, _, _, _, account⟩ := oldSide.accounted ha
  obtain ⟨_, _, _, _, account'⟩ := newSide.accounted hb
  have accepted := exchange.closed h
  simp only [Rule.ofTypes, Layout.kind?, ha, hb] at accepted
  exact Rule.kindsMatch account.describes.kind_closed account'.describes.kind_closed accepted

/-- Values that are exchangeable and not of user-defined value types have the same rule. -/
lemma value_rules_eq {t t' : TypeName} {ids ids' : List TypeId} {r r' : SizeRule}
    (h : Describes o t (ds.declarationOf? t) ids .value r)
    (h' : Describes n t' (ds'.declarationOf? t') ids' .value r')
    (plain : ¬ ds.NamesValueType t) (plain' : ¬ ds'.NamesValueType t')
    (family : o.family = n.family) : ∃ f, r = .known f ∧ r' = .known f := by
  obtain ⟨f, size, rfl⟩ := h.elementary_rule plain
  obtain ⟨g, size', rfl⟩ := h'.elementary_rule plain'
  rw [← ofElementary?_family, family, ofElementary?_family, size'] at size
  cases size
  exact ⟨f, rfl, rfl⟩

/-- Kinds that match come with rules that agree, user-defined value types apart. -/
lemma KindsMatch.rulesAgree {a b : TypeKind} (kinds : KindsMatch related o n a b)
    {t t' : TypeName} {ids ids' : List TypeId} {r r' : SizeRule}
    (h : Describes o t (ds.declarationOf? t) ids a r)
    (h' : Describes n t' (ds'.declarationOf? t') ids' b r')
    (plain : ¬ ds.NamesValueType t) (plain' : ¬ ds'.NamesValueType t') :
    RulesAgree related r r' := by
  cases kinds with
  | value family =>
    obtain ⟨f, rfl, rfl⟩ := value_rules_eq h h' plain plain' family
    exact .known f
  | contract =>
    cases h.sizeRule (by simp)
    cases h'.sizeRule (by simp)
    exact .known .contract
  | toAddress address =>
    cases h.sizeRule (by simp)
    obtain ⟨f, size, rfl⟩ := h'.elementary_rule plain'
    cases (ofElementary?_address address).symm.trans size
    exact .known .contract
  | fromAddress address =>
    cases h'.sizeRule (by simp)
    obtain ⟨f, size, rfl⟩ := h.elementary_rule plain
    cases (ofElementary?_address address).symm.trans size
    exact .known .contract
  | struct members =>
    cases h.sizeRule (by simp)
    cases h'.sizeRule (by simp)
    exact .struct members.types
  | enum width =>
    cases h.sizeRule (by simp)
    cases h'.sizeRule (by simp)
    simp only [width]
    exact .known _
  | mapping keys values =>
    cases h.sizeRule (by simp)
    cases h'.sizeRule (by simp)
    exact .known .word
  | @array _ _ length elements =>
    cases length with
    | dynamic =>
      cases h.sizeRule (by simp)
      cases h'.sizeRule (by simp)
      exact .known .word
    | fixed l =>
      cases h.sizeRule (by simp)
      cases h'.sizeRule (by simp)
      exact .fixedArray elements l

/-- Exchangeable types have the same footprints where no user-defined value type is in use. -/
lemma Exchangeable.footprints_agree (exchange : Exchangeable old new allow related)
    (oldSide : Extracted ds c old rules fs) (newSide : Extracted ds' c' new rules' fs')
    (plain : ∀ t, ds.Uses c t → ¬ ds.NamesValueType t)
    (plain' : ∀ t, ds'.Uses c' t → ¬ ds'.NamesValueType t) {f g : Footprint}
    (has : HasFootprint rules o f) (has' : HasFootprint rules' n g) (h : related o n) :
    f = g := by
  refine HasFootprint.agree (fun {o n r r'} h hr hr' => ?_) has has' h
  obtain ⟨a, ha⟩ := oldSide.entered hr
  obtain ⟨b, hb⟩ := newSide.entered hr'
  have kinds := exchange.kindsMatch oldSide newSide h ha hb rfl rfl
  obtain ⟨rule, found, t, ids, account⟩ := oldSide.accounted ha
  obtain ⟨rule', found', t', ids', account'⟩ := newSide.accounted hb
  cases Option.some.inj (hr.symm.trans found)
  cases Option.some.inj (hr'.symm.trans found')
  exact kinds.rulesAgree account.describes account'.describes (plain t account.used)
    (plain' t' account'.used)

end Pairs

end UpgradeSafety
