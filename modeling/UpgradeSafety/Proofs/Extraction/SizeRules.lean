import Mathlib.Data.List.Forall2
import Mathlib.Data.List.Perm.Subperm
import Mathlib.Logic.Relation
import UpgradeSafety.Proofs.Extraction.Sized

/-!
# What follows from size rules

A type has at most one footprint, and one that has a footprint needs no type that needs
it in turn. The types around the one that is being sized are different from one another.
-/

namespace UpgradeSafety

open Relation (TransGen)

section Agreement

variable {related : TypeId → TypeId → Prop} {o n : TypeId}

/-- Two size rules of the same form, over related types. -/
inductive RulesAgree (related : TypeId → TypeId → Prop) : SizeRule → SizeRule → Prop where
  | known (f : Footprint) : RulesAgree related (.known f) (.known f)
  | sameAs {o n : TypeId} (others : related o n) : RulesAgree related (.sameAs o) (.sameAs n)
  | fixedArray {o n : TypeId} (elements : related o n) (length : Nat) :
      RulesAgree related (.fixedArray o length) (.fixedArray n length)
  | struct {os ns : List TypeId} (members : List.Forall₂ related os ns) :
      RulesAgree related (.struct os) (.struct ns)

lemma getElem_mem_zip {α β : Type} {as : List α} {bs : List β} {i : Nat} (ha : i < as.length)
    (hb : i < bs.length) : (as[i], bs[i]) ∈ as.zip bs :=
  List.mem_of_getElem? (List.getElem?_zip_eq_some.2
    ⟨List.getElem?_eq_getElem ha, List.getElem?_eq_getElem hb⟩)

/-- Related types have the same footprints if their size rules agree. -/
lemma HasFootprint.agree {rules rules' : Table SizeRule}
    (agree : ∀ {o n r r'}, related o n → rules.find? o = some r → rules'.find? n = some r' →
      RulesAgree related r r')
    {f g : Footprint} (has : HasFootprint rules o f) (has' : HasFootprint rules' n g)
    (h : related o n) : f = g := by
  induction has generalizing n g with
  | known rule =>
    cases has' with
    | known rule' => cases agree h rule rule'; rfl
    | sameAs rule' => cases agree h rule rule'
    | fixedArray rule' => cases agree h rule rule'
    | struct rule' => cases agree h rule rule'
  | sameAs rule inner ih =>
    cases has' with
    | known rule' => cases agree h rule rule'
    | sameAs rule' inner' =>
      cases agree h rule rule' with
      | sameAs others => exact ih inner' others
    | fixedArray rule' => cases agree h rule rule'
    | struct rule' => cases agree h rule rule'
  | fixedArray rule inner size ih =>
    cases has' with
    | known rule' => cases agree h rule rule'
    | sameAs rule' => cases agree h rule rule'
    | fixedArray rule' inner' size' =>
      cases agree h rule rule' with
      | fixedArray elements =>
        rw [ih inner' elements] at size
        exact Option.some.inj (size.symm.trans size')
    | struct rule' => cases agree h rule rule'
  | @struct _ members fs _ rule lengths inner size ih =>
    cases has' with
    | known rule' => cases agree h rule rule'
    | sameAs rule' => cases agree h rule rule'
    | fixedArray rule' => cases agree h rule rule'
    | @struct _ members' fs' _ rule' lengths' inner' size' =>
      cases agree h rule rule' with
      | struct pairs =>
        have same : fs = fs' := by
          refine List.ext_getElem (by rw [← lengths, ← lengths', pairs.length_eq]) ?_
          intro i hi hi'
          have hm : i < members.length := by omega
          have hm' : i < members'.length := by omega
          exact ih _ (getElem_mem_zip hm hi) (inner' _ (getElem_mem_zip hm' hi'))
            (pairs.get hm hm')
        rw [same] at size
        exact Option.some.inj (size.symm.trans size')

/-- A type has at most one footprint. -/
lemma HasFootprint.unique {rules : Table SizeRule} {f g : Footprint}
    (has : HasFootprint rules o f) (has' : HasFootprint rules o g) : f = g := by
  refine HasFootprint.agree (fun {o n r r'} same found found' => ?_) has has' (rfl : o = o)
  cases same
  cases Option.some.inj (found.symm.trans found')
  cases r with
  | known f => exact .known f
  | sameAs other => exact .sameAs rfl
  | fixedArray element length => exact .fixedArray rfl length
  | struct members => exact .struct (List.forall₂_same.2 fun _ _ => rfl)

end Agreement

namespace SizeRule

/-- The types whose footprints a rule needs. -/
def needs : SizeRule → List TypeId
  | .known _ => []
  | .sameAs other => [other]
  | .fixedArray element _ => [element]
  | .struct members => members

end SizeRule

/-- The rule of a type needs the footprint of another one. -/
def Needs (rules : Table SizeRule) (id other : TypeId) : Prop :=
  ∃ rule, rules.find? id = some rule ∧ other ∈ rule.needs

lemma Needs.of_rule {rules : Table SizeRule} {id other : TypeId} {rule : SizeRule}
    (h : Needs rules id other) (found : rules.find? id = some rule) : other ∈ rule.needs := by
  obtain ⟨rule', found', mem⟩ := h
  cases found.symm.trans found'
  exact mem

namespace HasFootprint

variable {rules rules' : Table SizeRule} {id : TypeId} {f : Footprint}

/-- Types with footprints are followed through from those that are needed to those that need. -/
@[elab_as_elim]
lemma needs_induction {motive : TypeId → Prop} (has : HasFootprint rules id f)
    (step : ∀ id g, HasFootprint rules id g →
      (∀ other, Needs rules id other → motive other) → motive id) : motive id := by
  induction has with
  | known rule =>
    refine step _ _ (.known rule) fun other needed => ?_
    cases needed.of_rule rule
  | sameAs rule inner ih =>
    refine step _ _ (.sameAs rule inner) fun other needed => ?_
    rw [List.mem_singleton.1 (needed.of_rule rule)]
    exact ih
  | fixedArray rule inner size ih =>
    refine step _ _ (.fixedArray rule inner size) fun other needed => ?_
    rw [List.mem_singleton.1 (needed.of_rule rule)]
    exact ih
  | struct rule lengths inner size ih =>
    refine step _ _ (.struct rule lengths inner size) fun other needed => ?_
    obtain ⟨i, inside, rfl⟩ := List.mem_iff_getElem.1 (needed.of_rule rule)
    exact ih _ (getElem_mem_zip inside (lengths ▸ inside))

/-- A type with a footprint does not contain itself by value. -/
lemma not_cyclic (has : HasFootprint rules id f) : ¬ TransGen (Needs rules) id id := by
  have accessible : Acc (fun other id => Needs rules id other) id := by
    refine has.needs_induction fun id _ _ inner => ?_
    exact .intro id inner
  have deep := accessible.transGen
  clear has accessible
  intro cycle
  rw [← Relation.transGen_swap] at cycle
  induction deep with
  | intro id _ ih => exact ih id cycle cycle

/-- A footprint follows from some of the rules, if these are all that is needed. -/
lemma within (has : HasFootprint rules' id f)
    (extend : ∀ id rule, rules.find? id = some rule → rules'.find? id = some rule)
    (closed : ∀ id other, Needs rules id other → ∃ rule, rules.find? other = some rule)
    (entered : ∃ rule, rules.find? id = some rule) : HasFootprint rules id f := by
  induction has with
  | known rule' =>
    obtain ⟨rule, found⟩ := entered
    cases (extend _ _ found).symm.trans rule'
    exact .known found
  | sameAs rule' _ ih =>
    obtain ⟨rule, found⟩ := entered
    cases (extend _ _ found).symm.trans rule'
    exact .sameAs found (ih (closed _ _ ⟨_, found, List.mem_cons_self⟩))
  | fixedArray rule' _ size ih =>
    obtain ⟨rule, found⟩ := entered
    cases (extend _ _ found).symm.trans rule'
    exact .fixedArray found (ih (closed _ _ ⟨_, found, List.mem_cons_self⟩)) size
  | struct rule' lengths _ size ih =>
    obtain ⟨rule, found⟩ := entered
    cases (extend _ _ found).symm.trans rule'
    refine .struct found lengths (fun p hp => ?_) size
    exact ih p hp (closed _ _ ⟨_, found, (List.of_mem_zip hp).1⟩)

end HasFootprint

/-! ## Types around a type -/

namespace Sizing

variable {rules : Table SizeRule} {id : TypeId}

/-- Different types with rules are no more than there are rules. -/
lemma length_le_size {ids : List TypeId} (distinct : ids.Nodup)
    (ruled : ∀ id ∈ ids, ∃ rule, rules.find? id = some rule) : ids.length ≤ rules.size := by
  have keys : rules.keys.length = rules.size := List.length_map _
  rw [← keys]
  refine (List.subperm_of_subset distinct fun id mem => ?_).length_le
  obtain ⟨rule, found⟩ := ruled id mem
  exact Table.mem_keys_of_find? found

/-- The types around the one that is being sized: each of them needs it, and they are different. -/
structure Encloses (rules : Table SizeRule) (enclosing : List TypeId) (id : TypeId) : Prop where
  needed : ∀ e ∈ enclosing, TransGen (Needs rules) e id
  distinct : enclosing.Nodup

namespace Encloses

variable {enclosing : List TypeId} {other : TypeId}

lemma start (rules : Table SizeRule) (id : TypeId) : Encloses rules [] id := ⟨by simp, .nil⟩

lemma inner (h : Encloses rules enclosing id) (outside : id ∉ enclosing)
    (needed : Needs rules id other) : Encloses rules (id :: enclosing) other where
  needed e mem := by
    rcases List.mem_cons.1 mem with rfl | mem
    · exact .single needed
    · exact (h.needed e mem).tail needed
  distinct := List.nodup_cons.2 ⟨outside, h.distinct⟩

lemma ruled (h : Encloses rules enclosing id) :
    ∀ e ∈ enclosing, ∃ rule, rules.find? e = some rule := by
  intro e mem
  obtain ⟨_, ⟨rule, found, _⟩, _⟩ := Relation.TransGen.head'_iff.1 (h.needed e mem)
  exact ⟨rule, found⟩

/-- There are no more types around a type than there are rules. -/
lemma length_le (h : Encloses rules enclosing id) : enclosing.length ≤ rules.size :=
  length_le_size h.distinct h.ruled

end Encloses

end Sizing

end UpgradeSafety
