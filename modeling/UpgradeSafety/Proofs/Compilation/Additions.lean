import Mathlib.Data.List.DropRight
import UpgradeSafety.Proofs.Compilation.Lookups
import UpgradeSafety.Proofs.Extraction.Annotations
import UpgradeSafety.Proofs.TypeId.Pieces

/-!
# Programs with further declarations

A program to which declarations are added that a contract does not mention. The
contract finds everything that it refers to as before. The added declarations
may still share their names with those in use, and then ids that hold such a name
change; but two of them that were the same stay the same, and two that were
different stay different.
-/

namespace UpgradeSafety

/-! ## Added declarations -/

/-- The same contract, which may declare further types. -/
structure Contract.Extends (c c' : Contract) : Prop where
  id : c.id = c'.id
  name : c.name = c'.name
  lineage : c.lineage = c'.lineage
  stored : c.allVariables = c'.allVariables
  src : c.src = c'.src

/-- The same declaration, where a contract may declare further types. -/
inductive Declaration.Extends : Declaration → Declaration → Prop where
  | same (d : Declaration) : Extends d d
  | contract {c c' : Contract} (h : c.Extends c') : Extends (.contract c) (.contract c')

/-- Declarations in order, with others before, between and behind them. -/
inductive Interspersed (added : Declaration → Prop) : List Declaration → List Declaration → Prop
  where
  | nil : Interspersed added [] []
  | kept {d d' : Declaration} {l l' : List Declaration} (same : d.Extends d')
      (rest : Interspersed added l l') : Interspersed added (d :: l) (d' :: l')
  | added {d : Declaration} {l l' : List Declaration} (new : added d)
      (rest : Interspersed added l l') : Interspersed added l (d :: l')

namespace Declarations

/-- The node ids by which a contract, its bases and the types they use refer to something. -/
def Mentions (ds : Declarations) (c : Contract) (n : NodeId) : Prop :=
  n ∈ c.lineage ∨ ∃ t, ds.Uses c t ∧ (t.declaration? = some n ∨
    ∃ raw, t.description.identifier = some raw ∧ n ∈ TypeId.nodes raw)

/-- A new declaration that a contract, found by its name, has nothing to do with. -/
structure Unrelated (ds : Declarations) (name : String) (c : Contract) (d : Declaration) :
    Prop where
  fresh : ∀ e ∈ ds.all, e.id ≠ d.id
  unnamed : d.kind = .contract → d.name ≠ name
  unmentioned : ¬ ds.Mentions c d.id

/-- The same program with further declarations that are unrelated to a contract. -/
def ExtendedBy (ds : Declarations) (name : String) (c : Contract) (ds' : Declarations) : Prop :=
  Interspersed (ds.Unrelated name c) ds.all ds'.all

end Declarations

/-! ## Names as a compiler writes them -/

/-- The name of a declaration with what it stands in, if the compiler gave one. -/
def Declaration.fullName (d : Declaration) : String := d.canonicalName?.getD d.name

/-- The last part of the full name is the name of the declaration, and it has no bracket. -/
structure Declaration.NamedPlainly (d : Declaration) : Prop where
  plain : ∀ ch ∈ d.fullName.toList, ch ≠ '(' ∧ ch ≠ ')'
  last : d.fullName.toList.rtakeWhile (· ≠ '.') = d.name.toList

/-- A piece of an identifier that gives the kind, the name and the node of a declaration. -/
inductive TypeId.Segment.NamedIn (ds : Declarations) : TypeId.Segment → Prop where
  | char (ch : Char) : NamedIn ds (.char ch)
  | declared {n : NodeId} {d : Declaration} (found : ds.find? n = some d)
      (plain : d.NamedPlainly) :
      NamedIn ds (.declared (d.kind.head ++ ['(']) d.name.toList (some n))

instance (d : Declaration) : Decidable d.NamedPlainly :=
  decidable_of_iff (d.fullName.toList.all (fun ch => ch ≠ '(' ∧ ch ≠ ')') = true ∧
    d.fullName.toList.rtakeWhile (· ≠ '.') = d.name.toList) <| by
    rw [List.all_eq_true]
    constructor
    · intro h
      exact ⟨fun ch member => of_decide_eq_true (h.1 ch member), h.2⟩
    · intro h
      exact ⟨fun ch member => decide_eq_true (h.plain ch member), h.last⟩

instance (ds : Declarations) (piece : TypeId.Segment) : Decidable (piece.NamedIn ds) :=
  match piece with
  | .char ch => isTrue (.char ch)
  | .declared head name node =>
    decidable_of_iff (∃ d ∈ node.bind ds.find?, head = d.kind.head ++ ['('] ∧
        name = d.name.toList ∧ d.NamedPlainly) <| by
      constructor
      · rintro ⟨d, found, rfl, rfl, plain⟩
        obtain ⟨n, rfl, found⟩ := Option.bind_eq_some_iff.1 found
        exact .declared found plain
      · rintro ⟨⟩
        exact ⟨_, ‹_›, rfl, rfl, ‹_›⟩

/-- The identifiers of the annotations in use name the declarations that they mention. -/
def Declarations.WellNamed (ds : Declarations) (c : Contract) : Prop :=
  ∀ t raw, ds.Uses c t → t.description.identifier = some raw →
    ∀ piece ∈ TypeId.segments raw, piece.NamedIn ds

namespace Declaration.Extends

variable {d d' : Declaration}

lemma id (h : d.Extends d') : d.id = d'.id := by
  cases h with
  | same d => rfl
  | contract h => exact h.id

lemma kind (h : d.Extends d') : d.kind = d'.kind := by
  cases h <;> rfl

lemma name (h : d.Extends d') : d.name = d'.name := by
  cases h with
  | same d => rfl
  | contract h => exact h.name

lemma canonicalName? (h : d.Extends d') : d.canonicalName? = d'.canonicalName? := by
  cases h <;> rfl

lemma fullName (h : d.Extends d') : d.fullName = d'.fullName := by
  rw [Declaration.fullName, Declaration.fullName, h.canonicalName?, h.name]

lemma namedPlainly (h : d.Extends d') (plain : d.NamedPlainly) : d'.NamedPlainly where
  plain := by
    rw [← h.fullName]
    exact plain.plain
  last := by
    rw [← h.fullName, ← h.name]
    exact plain.last

lemma contractsAlike (h : d.Extends d') : d.ContractsAlike Contract.Extends d' := by
  cases h with
  | contract h => exact .contract h
  | same d =>
    cases d with
    | contract c => exact .contract ⟨rfl, rfl, rfl, rfl, rfl⟩
    | struct s => exact .other (by simp [Declaration.kind]) (by simp [Declaration.kind])
    | enum e => exact .other (by simp [Declaration.kind]) (by simp [Declaration.kind])
    | valueType t => exact .other (by simp [Declaration.kind]) (by simp [Declaration.kind])

end Declaration.Extends

/-- What is filtered out of both programs, if nothing is added by it. -/
lemma Interspersed.filter {added : Declaration → Prop} {l l' : List Declaration}
    (h : Interspersed added l l') {p : Declaration → Bool}
    (agree : ∀ d d', d.Extends d' → p d = p d') (none : ∀ d, added d → p d = false) :
    List.Forall₂ Declaration.Extends (l.filter p) (l'.filter p) := by
  induction h with
  | nil => exact .nil
  | @kept d d' l l' same _ ih =>
    rw [List.filter_cons, List.filter_cons, agree d d' same]
    cases p d' with
    | true => exact .cons same ih
    | false => exact ih
  | @added d l l' new _ ih =>
    rw [List.filter_cons, none d new]
    exact ih

/-! ## Looking things up -/

namespace Declarations

variable {ds ds' : Declarations} {name : String} {c c' : Contract}

lemma mem_of_find? {n : NodeId} {d : Declaration} (found : ds.find? n = some d) : d ∈ ds.all :=
  (List.mem_filter.1 (List.mem_of_getLast? found)).1

namespace ExtendedBy

/-- What the contract mentions and what was declared before is found as before. -/
lemma find? (h : ds.ExtendedBy name c ds') {n : NodeId}
    (kept : ds.Mentions c n ∨ ∃ e ∈ ds.all, e.id = n) :
    Option.Rel Declaration.Extends (ds.find? n) (ds'.find? n) := by
  apply forall₂_getLast?
  apply h.filter
  · intro d d' same
    rw [same.id]
  · intro d unrelated
    apply decide_eq_false
    rintro rfl
    rcases kept with mentioned | ⟨e, member, same⟩
    · exact unrelated.unmentioned mentioned
    · exact unrelated.fresh e member same

lemma contract (h : ds.ExtendedBy name c ds') {n : NodeId}
    (kept : ds.Mentions c n ∨ ∃ e ∈ ds.all, e.id = n) :
    EndAlike True Contract.Extends (ds.contract n) (ds'.contract n) :=
  contract_alike (optionRel_imp (h.find? kept) fun _ _ hd => hd.contractsAlike)

lemma contractNamed (h : ds.ExtendedBy name c ds') :
    EndAlike True Contract.Extends (ds.contractNamed name) (ds'.contractNamed name) := by
  have named : List.Forall₂ Declaration.Extends (ds.contractsNamed name)
      (ds'.contractsNamed name) := by
    apply h.filter
    · intro d d' same
      rw [same.kind, same.name]
    · intro d unrelated
      rw [Bool.and_eq_false_iff, decide_eq_false_iff_not, decide_eq_false_iff_not]
      by_cases contract : d.kind = .contract
      · exact Or.inr (unrelated.unnamed contract)
      · exact Or.inl contract
  apply contractNamed_alike named
  intro d member d' same
  rw [← same.id]
  exact h.contract (Or.inr ⟨d, member, rfl⟩)

lemma lineage (h : ds.ExtendedBy name c ds') (hc : c.Extends c') :
    EndAlike True (List.Forall₂ Contract.Extends) (ds.lineage c) (ds'.lineage c') := by
  apply lineage_alike hc
  rw [← hc.lineage, ← hc.id]
  apply List.forall₂_same.2
  intro n member
  exact ⟨Iff.rfl, h.contract (Or.inl (Or.inl member))⟩

end ExtendedBy

/-! ## Names in canonical ids -/

/-- The name that stands for a declaration in canonical ids. -/
def nameInIds (ds : Declarations) (d : Declaration) : String :=
  if 1 < ds.sharing d.kind d.name then d.fullName else d.name

variable {n m : NodeId} {d e : Declaration}

lemma nameInIds_found (found : ds.find? n = some d) :
    TypeId.shownName ds.distinctName? d.name.toList (some n) = (ds.nameInIds d).toList := by
  rw [TypeId.shownName, Option.bind_some, distinctName?, found, Option.bind_some, nameInIds]
  split
  · rw [Declaration.fullName]
    cases d.canonicalName? <;> rfl
  · rfl

lemma nameInIds_plain (ds : Declarations) (plain : d.NamedPlainly) :
    ∀ ch ∈ (ds.nameInIds d).toList, ch ≠ '(' ∧ ch ≠ ')' := by
  rw [nameInIds]
  split
  · exact plain.plain
  · intro ch member
    rw [← plain.last] at member
    exact plain.plain ch ((List.rtakeWhile_suffix _ _).subset member)

/-- Whether a name is shared or not, its last part is the same. -/
lemma nameInIds_last (ds : Declarations) (plain : d.NamedPlainly) :
    (ds.nameInIds d).toList.rtakeWhile (· ≠ '.') = d.name.toList := by
  rw [nameInIds]
  split
  · exact plain.last
  · rw [← plain.last, List.rtakeWhile_idempotent]

lemma one_lt_sharing (hd : d ∈ ds.all) (he : e ∈ ds.all) (apart : d ≠ e)
    (kinds : d.kind = e.kind) (names : d.name = e.name) : 1 < ds.sharing d.kind d.name := by
  have first : d ∈ ds.all.filter fun x => x.kind = d.kind && x.name = d.name :=
    List.mem_filter.2 ⟨hd, by simp⟩
  have second : e ∈ ds.all.filter fun x => x.kind = d.kind && x.name = d.name :=
    List.mem_filter.2 ⟨he, by simp [kinds, names]⟩
  rw [sharing, List.countP_eq_length_filter]
  generalize ds.all.filter _ = l at first second
  cases l with
  | nil => cases first
  | cons x l =>
    cases l with
    | nil =>
      rw [List.mem_singleton.1 first, List.mem_singleton.1 second] at apart
      exact absurd rfl apart
    | cons y l =>
      rw [List.length_cons, List.length_cons]
      omega

/-- Declarations of one kind go by one name exactly if nothing tells their names apart. -/
lemma nameInIds_eq_iff (hd : ds.find? n = some d) (he : ds.find? m = some e)
    (kinds : d.kind = e.kind) (plain : d.NamedPlainly) (plain' : e.NamedPlainly) :
    ds.nameInIds d = ds.nameInIds e ↔ d.name = e.name ∧ d.fullName = e.fullName := by
  constructor
  · intro same
    have names : d.name = e.name := by
      rw [← String.toList_inj, ← nameInIds_last ds plain, same, nameInIds_last ds plain']
    refine ⟨names, ?_⟩
    by_cases shared : 1 < ds.sharing d.kind d.name
    · rw [nameInIds, nameInIds, ← kinds, ← names, if_pos shared, if_pos shared] at same
      exact same
    · by_contra differs
      apply shared
      apply one_lt_sharing (mem_of_find? hd) (mem_of_find? he) _ kinds names
      rintro rfl
      exact differs rfl
  · rintro ⟨names, fullNames⟩
    rw [nameInIds, nameInIds, kinds, names, fullNames]

end Declarations

namespace TypeId

open Declarations

variable {ds ds' : Declarations} {name : String} {c : Contract}

lemma writtenAlike_declared_iff {q : NodeId → Option String} {head head' name name' : List Char}
    {node node' : Option NodeId} :
    (Segment.declared head name node).WrittenAlike q (.declared head' name' node') ↔
      head = head' ∧ shownName q name node = shownName q name' node' := by
  constructor
  · intro alike
    cases alike with
    | declared head same => exact ⟨rfl, same⟩
  · rintro ⟨rfl, same⟩
    exact .declared head same

/-- Two declarations are written alike exactly if nothing tells them apart. -/
lemma writtenAlike_found_iff {n m : NodeId} {d e : Declaration} (hd : ds.find? n = some d)
    (he : ds.find? m = some e) (plain : d.NamedPlainly) (plain' : e.NamedPlainly) :
    (Segment.declared (d.kind.head ++ ['(']) d.name.toList (some n)).WrittenAlike
        ds.distinctName? (.declared (e.kind.head ++ ['(']) e.name.toList (some m)) ↔
      d.kind = e.kind ∧ d.name = e.name ∧ d.fullName = e.fullName := by
  rw [writtenAlike_declared_iff, nameInIds_found hd, nameInIds_found he, String.toList_inj,
    List.append_left_inj]
  constructor
  · rintro ⟨heads, same⟩
    have kinds := DeclarationKind.head_injective heads
    exact ⟨kinds, (nameInIds_eq_iff hd he kinds plain plain').1 same⟩
  · rintro ⟨kinds, same⟩
    exact ⟨congrArg _ kinds, (nameInIds_eq_iff hd he kinds plain plain').2 same⟩

/-- A piece that names a declaration still does so where declarations are added. -/
lemma Segment.NamedIn.extended (h : ds.ExtendedBy name c ds') {piece : Segment}
    (named : piece.NamedIn ds) (mentioned : ∀ n, piece.node? = some n → ds.Mentions c n) :
    piece.NamedIn ds' := by
  cases named with
  | char ch => exact .char ch
  | @declared n d found plain =>
    have kept := h.find? (Or.inl (mentioned n rfl))
    rw [found] at kept
    generalize found' : ds'.find? n = d' at kept
    cases kept with
    | some same =>
      rw [same.kind, same.name]
      exact .declared found' (same.namedPlainly plain)

lemma plainNames_of_named {pieces : List Segment} (named : ∀ piece ∈ pieces, piece.NamedIn ds) :
    PlainNames ds.distinctName? pieces := by
  intro head name node member
  cases named _ member with
  | declared found plain =>
    rw [nameInIds_found found]
    exact nameInIds_plain ds plain

/-- The names in an identifier make no difference, or it holds a bracket whichever they are. -/
lemma canonicalWith_names {raw : String} (named : ∀ piece ∈ segments raw, piece.NamedIn ds)
    (q q' : NodeId → Option String) : canonicalWith q raw = canonicalWith q' raw ∨
      '(' ∈ (canonicalWith q raw).toList ∧ '(' ∈ (canonicalWith q' raw).toList := by
  rw [canonicalWith, canonicalWith, String.toList_ofList, String.toList_ofList, String.ofList_inj]
  generalize segments raw = pieces at named
  induction pieces with
  | nil => exact Or.inl rfl
  | cons piece pieces ih =>
    rw [List.flatMap_cons, List.flatMap_cons]
    cases named piece List.mem_cons_self with
    | char ch =>
      rcases ih fun piece member => named piece (.tail _ member) with same | ⟨inside, inside'⟩
      · exact Or.inl (congrArg _ same)
      · exact Or.inr ⟨List.mem_append_right _ inside, List.mem_append_right _ inside'⟩
    | declared found plain =>
      refine Or.inr ⟨?_, ?_⟩
      · simp [Segment.chars]
      · simp [Segment.chars]

/-- Added declarations neither join nor separate what was there. -/
lemma Segment.writtenAlike_extended_iff (h : ds.ExtendedBy name c ds') {piece piece' : Segment}
    (named : piece.NamedIn ds) (mentioned : ∀ n, piece.node? = some n → ds.Mentions c n)
    (named' : piece'.NamedIn ds) (mentioned' : ∀ n, piece'.node? = some n → ds.Mentions c n) :
    piece.WrittenAlike ds.distinctName? piece' ↔ piece.WrittenAlike ds'.distinctName? piece' := by
  cases named with
  | char ch =>
    cases named' with
    | char ch' =>
      constructor
      · rintro ⟨⟩
        exact .char ch
      · rintro ⟨⟩
        exact .char ch
    | declared found' plain' =>
      constructor
      · rintro ⟨⟩
      · rintro ⟨⟩
  | @declared n d found plain =>
    cases named' with
    | char ch' =>
      constructor
      · rintro ⟨⟩
      · rintro ⟨⟩
    | @declared m e found' plain' =>
      have kept := h.find? (Or.inl (mentioned n rfl))
      have kept' := h.find? (Or.inl (mentioned' m rfl))
      rw [writtenAlike_found_iff found found' plain plain']
      rw [found] at kept
      rw [found'] at kept'
      generalize later : ds'.find? n = x at kept
      generalize later' : ds'.find? m = y at kept'
      cases kept with
      | some same =>
        cases kept' with
        | some same' =>
          rw [same.kind, same.name, same'.kind, same'.name, same.fullName, same'.fullName,
            writtenAlike_found_iff later later' (same.namedPlainly plain)
              (same'.namedPlainly plain')]

end TypeId

/-! ## Canonical ids -/

namespace Declarations

variable {ds ds' : Declarations} {name : String} {c : Contract}

/-- The canonical ids that an annotation in use has in two programs. -/
def Renames (ds : Declarations) (c : Contract) (ds' : Declarations) (i i' : TypeId) : Prop :=
  ∃ t raw, ds.Uses c t ∧ t.description.identifier = some raw ∧ ds.canonicalId raw = i ∧
    ds'.canonicalId raw = i'

lemma mentions_of_piece {t : TypeName} {raw : String} (used : ds.Uses c t)
    (identified : t.description.identifier = some raw) {piece : TypeId.Segment}
    (member : piece ∈ TypeId.segments raw) (n : NodeId) (node : piece.node? = some n) :
    ds.Mentions c n :=
  Or.inr ⟨t, used, Or.inr ⟨raw, identified, List.mem_filterMap.2 ⟨piece, member, node⟩⟩⟩

namespace ExtendedBy

variable {i i' j j' : TypeId}

/-- Ids in use are the same after declarations were added exactly if they were so before. -/
lemma renames_eq_iff (h : ds.ExtendedBy name c ds') (wellNamed : ds.WellNamed c)
    (hi : ds.Renames c ds' i i') (hj : ds.Renames c ds' j j') : i = j ↔ i' = j' := by
  obtain ⟨t, raw, used, identified, rfl, rfl⟩ := hi
  obtain ⟨u, raw', used', identified', rfl, rfl⟩ := hj
  have named := wellNamed t raw used identified
  have named' := wellNamed u raw' used' identified'
  have mentioned {piece} (member : piece ∈ TypeId.segments raw) :=
    mentions_of_piece used identified member
  have mentioned' {piece} (member : piece ∈ TypeId.segments raw') :=
    mentions_of_piece used' identified' member
  have later piece member := (named piece member).extended h (mentioned member)
  have later' piece member := (named' piece member).extended h (mentioned' member)
  rw [canonicalId, canonicalId, canonicalId, canonicalId,
    TypeId.canonicalWith_eq_iff (TypeId.plainNames_of_named named)
      (TypeId.plainNames_of_named named'),
    TypeId.canonicalWith_eq_iff (TypeId.plainNames_of_named later)
      (TypeId.plainNames_of_named later'), List.forall₂_iff_zip, List.forall₂_iff_zip]
  apply and_congr_right'
  apply forall₂_congr
  intro piece piece'
  apply imp_congr_right
  intro place
  obtain ⟨member, member'⟩ := List.of_mem_zip place
  exact TypeId.Segment.writtenAlike_extended_iff h (named piece member) (mentioned member)
    (named' piece' member') (mentioned' member')

lemma renames_arrayLength? (h : ds.ExtendedBy name c ds') (wellNamed : ds.WellNamed c)
    (hi : ds.Renames c ds' i i') : i.arrayLength? = i'.arrayLength? := by
  obtain ⟨t, raw, used, identified, rfl, rfl⟩ := hi
  have named := wellNamed t raw used identified
  have later piece member :=
    (named piece member).extended h (mentions_of_piece used identified member)
  exact TypeId.arrayLength?_names (TypeId.plainNames_of_named named)
    (TypeId.plainNames_of_named later)

end ExtendedBy

/-! ## Contracts that use few annotations -/

variable {ts : List TypeName}

/-- All annotations in use, if a list holds those of the variables and what lies inside them. -/
lemma uses_mem (bases : List Contract) (lineage : ds.lineage c = .ok bases)
    (stored : ∀ q ∈ Extraction.variablesOf bases, q.2.type ∈ ts)
    (closed : ∀ t ∈ ts, ∀ u ∈ ds.inside t, u ∈ ts) (t : TypeName) (used : ds.Uses c t) :
    t ∈ ts := by
  induction used with
  | stored found member =>
    cases lineage.symm.trans found
    obtain ⟨q, here, rfl⟩ := List.mem_map.1 member
    exact stored q here
  | inside _ member ih => exact closed _ ih _ member

lemma unrelated_of_uses (used : ∀ t, ds.Uses c t → t ∈ ts) {d : Declaration}
    (fresh : ∀ e ∈ ds.all, e.id ≠ d.id) (unnamed : d.kind = .contract → d.name ≠ name)
    (apart : d.id ∉ c.lineage) (unmentioned : ∀ t ∈ ts, t.declaration? ≠ some d.id ∧
      ∀ raw ∈ t.description.identifier, d.id ∉ TypeId.nodes raw) : ds.Unrelated name c d where
  fresh := fresh
  unnamed := unnamed
  unmentioned := by
    rintro (base | ⟨t, uses, refers | ⟨raw, identified, member⟩⟩)
    · exact apart base
    · exact (unmentioned t (used t uses)).1 refers
    · exact (unmentioned t (used t uses)).2 raw identified member

lemma wellNamed_of_uses (used : ∀ t, ds.Uses c t → t ∈ ts)
    (named : ∀ t ∈ ts, ∀ raw ∈ t.description.identifier, ∀ piece ∈ TypeId.segments raw,
      piece.NamedIn ds) : ds.WellNamed c := by
  intro t raw uses identified
  exact named t (used t uses) raw identified

end Declarations

end UpgradeSafety
