import Mathlib.Data.List.Forall2
import Mathlib.Data.List.TakeWhile
import UpgradeSafety.Proofs.TypeId.ArrayLengths

/-!
# The pieces of any identifier

A canonical id can be read back into pieces whatever it was made from, also
where a function type mentions declared types: as long as no chosen name holds
a bracket, two canonical ids agree only if they were put together alike, and the
length of an array does not depend on the names that are chosen.
-/

namespace UpgradeSafety

namespace TypeId

variable {q q' : NodeId → Option String}

/-- The name that stands in a canonical id for one that was declared at a node. -/
def shownName (q : NodeId → Option String) (name : List Char) (node : Option NodeId) :
    List Char := ((node.bind q).map String.toList).getD name

/-- No name that stands in a canonical id holds a bracket. -/
def PlainNames (q : NodeId → Option String) (pieces : List Segment) : Prop :=
  ∀ head name node, .declared head name node ∈ pieces →
    ∀ c ∈ shownName q name node, c ≠ '(' ∧ c ≠ ')'

/-- Two pieces that are written alike: a declared type has the same beginning and name. -/
inductive Segment.WrittenAlike (q : NodeId → Option String) : Segment → Segment → Prop
  | char (c : Char) : WrittenAlike q (.char c) (.char c)
  | declared {name name' : List Char} {node node' : Option NodeId} (head : List Char)
      (same : shownName q name node = shownName q name' node') :
      WrittenAlike q (.declared head name node) (.declared head name' node')

/-! ## Taking a text apart -/

/-- What stands behind the beginning of a declared type is one exactly if it is closed. -/
lemma behind_name_eq_nil (named : List Char) :
    named.drop (named.takeWhile (· ≠ ')')).length = [] ↔ ')' ∉ named := by
  rw [List.drop_eq_nil_iff]
  constructor
  · intro whole closing
    have all := (List.takeWhile_prefix (· ≠ ')') (l := named)).eq_of_length_le whole
    rw [← all] at closing
    simpa using List.mem_takeWhile_imp closing
  · intro absent
    have all : named.takeWhile (· ≠ ')') = named := by
      rw [List.takeWhile_eq_self_iff]
      intro c hc
      apply decide_eq_true
      rintro rfl
      exact absent hc
    rw [all]
lemma segmentBehind_eq_none {head named : List Char} :
    segmentBehind head named = none ↔ ')' ∉ named := by
  rw [← behind_name_eq_nil, segmentBehind]
  simp only
  cases named.drop (named.takeWhile (· ≠ ')')).length with
  | nil => simp
  | cons c after => simp

lemma segmentBehind_some {head named : List Char} {segment : Segment} {n : Nat}
    (h : segmentBehind head named = some (segment, n)) :
    head.length < n ∧ ∃ name node, segment = .declared head name node := by
  rw [segmentBehind] at h
  simp only at h
  cases behind : named.drop (named.takeWhile (· ≠ ')')).length with
  | nil =>
    rw [behind] at h
    cases h
  | cons c after =>
    rw [behind] at h
    cases h
    refine ⟨?_, _, _, rfl⟩
    omega

/-- A declared type at the front of a text: how it begins, and that it is closed. -/
lemma declaredAt?_some {text : List Char} {segment : Segment} {n : Nat}
    (h : declaredAt? text = some (segment, n)) :
    0 < n ∧ ')' ∈ text ∧ ∃ head ∈ declaredHeads, head <+: text ∧
      ∃ name node, segment = .declared head name node := by
  rw [declaredAt?_eq_segmentBehind] at h
  obtain ⟨head, member, found⟩ := List.exists_of_findSome?_eq_some h
  by_cases begins : head.isPrefixOf text = true
  · rw [if_pos begins] at found
    obtain ⟨longer, shape⟩ := segmentBehind_some found
    refine ⟨by omega, ?_, head, member, List.isPrefixOf_iff_prefix.1 begins, shape⟩
    by_contra absent
    have none : segmentBehind head (text.drop head.length) = none :=
      segmentBehind_eq_none.2 fun closing => absent (List.mem_of_mem_drop closing)
    rw [none] at found
    cases found
  · rw [if_neg begins] at found
    cases found

/-- An induction over a text, one piece after the other. -/
lemma pieces_induction {motive : List Char → Prop} (nil : motive [])
    (char : ∀ c rest, declaredAt? (c :: rest) = none → motive rest → motive (c :: rest))
    (declared : ∀ text segment n, declaredAt? text = some (segment, n) →
      motive (text.drop n) → motive text) (text : List Char) : motive text := by
  induction h : text.length using Nat.strongRecOn generalizing text with
  | ind length ih =>
    subst h
    cases text with
    | nil => exact nil
    | cons c rest =>
      cases found : declaredAt? (c :: rest) with
      | none => exact char c rest found (ih rest.length (by simp) rest rfl)
      | some piece =>
        obtain ⟨segment, n⟩ := piece
        have pos := (declaredAt?_some found).1
        have shorter : ((c :: rest).drop n).length < (c :: rest).length := by
          rw [List.length_drop, List.length_cons]
          omega
        exact declared _ segment n found (ih _ shorter _ rfl)

lemma canonicalChars_char {c : Char} {rest : List Char} (h : declaredAt? (c :: rest) = none) :
    canonicalChars q (c :: rest) = c :: canonicalChars q rest := by
  rw [canonicalChars, segmentsFrom_char h]
  rfl

lemma canonicalChars_declared {text head name : List Char} {node : Option NodeId} {n : Nat}
    (h : declaredAt? text = some (.declared head name node, n)) :
    canonicalChars q text =
      head ++ (shownName q name node ++ ')' :: canonicalChars q (text.drop n)) := by
  rw [canonicalChars, segmentsFrom_declared h (declaredAt?_some h).1, List.flatMap_cons]
  simp only [Segment.chars, shownName, List.append_assoc, List.cons_append, List.nil_append]
  rfl

/-- A text that is closed somewhere after it has been put together was so before. -/
lemma closing_mem {text : List Char} (h : ')' ∈ canonicalChars q text) : ')' ∈ text := by
  induction text using pieces_induction with
  | nil => exact h
  | char c rest none ih =>
    rw [canonicalChars_char none] at h
    rcases List.mem_cons.1 h with rfl | h
    · exact List.mem_cons_self
    · exact List.mem_cons_of_mem c (ih h)
  | declared text segment n found ih => exact (declaredAt?_some found).2.1

/-- How every declared type begins. -/
lemma heads_begin : ∀ head ∈ declaredHeads, ['t', '_'] <+: head := by decide

/-- A word in which no declared type can begin was copied from the text. -/
lemma copied_of_begins {w : List Char} (untyped : ¬ ['t', '_'] <:+: w)
    (ended : w.getLast? ≠ some 't') {text behind : List Char}
    (h : canonicalChars q text = w ++ behind) :
    ∃ rest, text = w ++ rest ∧ segmentsFrom 0 text = copied w ++ segmentsFrom 0 rest ∧
      canonicalChars q rest = behind := by
  induction w generalizing text with
  | nil => exact ⟨text, rfl, rfl, h⟩
  | cons a w ih =>
    have inner : ¬ ['t', '_'] <:+: w := fun inside =>
      untyped (inside.trans (List.suffix_cons a w).isInfix)
    have last : w.getLast? ≠ some 't' := by
      intro ends
      apply ended
      rw [List.getLast?_cons, ends]
      rfl
    cases text with
    | nil => cases h
    | cons c text =>
      cases found : declaredAt? (c :: text) with
      | none =>
        rw [canonicalChars_char found] at h
        obtain ⟨rfl, tail⟩ := List.cons.inj h
        obtain ⟨rest, rfl, pieces, put⟩ := ih inner last tail
        refine ⟨rest, rfl, ?_, put⟩
        rw [segmentsFrom_char found, pieces]
        rfl
      | some piece =>
        -- then `a` is the `t` of a declared type, and an underscore follows it
        obtain ⟨segment, n⟩ := piece
        obtain ⟨_, _, head, member, _, name, node, rfl⟩ := declaredAt?_some found
        rw [canonicalChars_declared found] at h
        obtain ⟨more, rfl⟩ := heads_begin head member
        obtain ⟨rfl, tail⟩ := List.cons.inj h
        cases w with
        | nil => exact absurd rfl ended
        | cons b w =>
          obtain ⟨rfl, _⟩ := List.cons.inj tail
          exact absurd ⟨[], w, rfl⟩ untyped

/-- The beginnings of declared types, behind their first letter. -/
lemma heads_untyped : ∀ head ∈ declaredHeads, ∃ w, head = 't' :: w ∧ ¬ ['t', '_'] <:+: w ∧
    w.getLast? ≠ some 't' := by
  have tails : ∀ head ∈ declaredHeads, ¬ ['t', '_'] <:+: head.tail ∧
      head.tail.getLast? ≠ some 't' := by decide +kernel
  intro head member
  refine ⟨head.tail, ?_, tails head member⟩
  have first := (declaredHeads_shape head member).1
  cases head with
  | nil => cases first
  | cons c w =>
    cases first
    rfl

/-- Where a declared type begins in what was put together, one begins in the text. -/
lemma declared_of_begins {head behind text : List Char} (member : head ∈ declaredHeads)
    (h : canonicalChars q text = head ++ behind) (closing : ')' ∈ behind) :
    declaredAt? text ≠ none := by
  intro none
  obtain ⟨w, rfl, untyped, ended⟩ := heads_untyped head member
  cases text with
  | nil => cases h
  | cons c text =>
    rw [canonicalChars_char none] at h
    obtain ⟨rfl, tail⟩ := List.cons.inj h
    obtain ⟨rest, rfl, _, put⟩ := copied_of_begins untyped ended tail
    rw [← List.cons_append, declaredAt?_append member, segmentBehind_eq_none] at none
    rw [← put] at closing
    exact none (closing_mem closing)

/-! ## Reading the pieces back -/

lemma Segment.WrittenAlike.chars {segment segment' : Segment}
    (h : segment.WrittenAlike q segment') :
    segment.chars q = segment'.chars q := by
  cases h with
  | char c => rfl
  | declared head same =>
    rw [Segment.chars, Segment.chars]
    exact congrArg (head ++ · ++ [')']) same

lemma append_closing_inj {v w x y : List Char} (hv : ∀ c ∈ v, c ≠ '(' ∧ c ≠ ')')
    (hw : ∀ c ∈ w, c ≠ '(' ∧ c ≠ ')') (same : v ++ ')' :: x = w ++ ')' :: y) : v = w ∧ x = y := by
  have upTo {u z : List Char} (hu : ∀ c ∈ u, c ≠ '(' ∧ c ≠ ')') :
      (u ++ ')' :: z).takeWhile (· ≠ ')') = u := by
    rw [List.takeWhile_append_of_pos fun c hc => decide_eq_true (hu c hc).2]
    simp
  have names : v = w := by
    rw [← upTo hv, same, upTo hw]
  subst names
  exact ⟨rfl, List.tail_eq_of_cons_eq (List.append_cancel_left same)⟩

lemma PlainNames.tail {piece : Segment} {pieces : List Segment}
    (plain : PlainNames q (piece :: pieces)) : PlainNames q pieces :=
  fun head name node member => plain head name node (List.mem_cons_of_mem piece member)

/-- Canonical ids that agree were put together from pieces that are written alike. -/
lemma writtenAlike_of_eq {text text' : List Char} (plain : PlainNames q (segmentsFrom 0 text))
    (plain' : PlainNames q (segmentsFrom 0 text'))
    (same : canonicalChars q text = canonicalChars q text') :
    List.Forall₂ (Segment.WrittenAlike q) (segmentsFrom 0 text) (segmentsFrom 0 text') := by
  have closed (name : List Char) (node : Option NodeId) (rest : List Char) :
      ')' ∈ shownName q name node ++ ')' :: rest :=
    List.mem_append_right _ List.mem_cons_self
  induction text using pieces_induction generalizing text' with
  | nil =>
    cases text' with
    | nil => exact .nil
    | cons c' rest' =>
      cases found' : declaredAt? (c' :: rest') with
      | none =>
        rw [canonicalChars_char found'] at same
        cases same
      | some piece =>
        obtain ⟨segment', n'⟩ := piece
        obtain ⟨_, _, head', member', _, name', node', rfl⟩ := declaredAt?_some found'
        rw [canonicalChars_declared found'] at same
        exact absurd rfl (declared_of_begins member' same (closed _ _ _))
  | char c rest none ih =>
    cases found' : declaredAt? text' with
    | none =>
      cases text' with
      | nil =>
        rw [canonicalChars_char none] at same
        cases same
      | cons c' rest' =>
        rw [canonicalChars_char none, canonicalChars_char found'] at same
        obtain ⟨rfl, tail⟩ := List.cons.inj same
        rw [segmentsFrom_char none] at plain ⊢
        rw [segmentsFrom_char found'] at plain' ⊢
        exact .cons (.char c) (ih plain.tail plain'.tail tail)
    | some piece =>
      obtain ⟨segment', n'⟩ := piece
      obtain ⟨_, _, head', member', _, name', node', rfl⟩ := declaredAt?_some found'
      rw [canonicalChars_declared found'] at same
      exact absurd none (declared_of_begins member' same (closed _ _ _))
  | declared text segment n found ih =>
    obtain ⟨pos, _, head, member, _, name, node, rfl⟩ := declaredAt?_some found
    rw [canonicalChars_declared found] at same
    cases found' : declaredAt? text' with
    | none => exact absurd found' (declared_of_begins member same.symm (closed _ _ _))
    | some piece =>
      obtain ⟨segment', n'⟩ := piece
      obtain ⟨pos', _, head', member', _, name', node', rfl⟩ := declaredAt?_some found'
      rw [canonicalChars_declared found'] at same
      have heads : head = head' := by
        have begins : head' <+: head ++ (shownName q name node ++
            ')' :: canonicalChars q (text.drop n)) := by
          rw [same]
          exact List.prefix_append head' _
        rcases List.prefix_or_prefix_of_prefix (List.prefix_append head _) begins with h | h
        · exact heads_apart head member head' member' h
        · exact (heads_apart head' member' head member h).symm
      subst heads
      rw [segmentsFrom_declared found pos] at plain ⊢
      rw [segmentsFrom_declared found' pos'] at plain' ⊢
      obtain ⟨names, tail⟩ := append_closing_inj (plain head name node List.mem_cons_self)
        (plain' head name' node' List.mem_cons_self) (List.append_cancel_left same)
      exact .cons (.declared head names) (ih plain.tail plain'.tail tail)

/-- Two canonical ids agree exactly if their pieces are written alike. -/
lemma canonicalWith_eq_iff {raw raw' : String} (plain : PlainNames q (segments raw))
    (plain' : PlainNames q (segments raw')) :
    canonicalWith q raw = canonicalWith q raw' ↔
      List.Forall₂ (Segment.WrittenAlike q) (segments raw) (segments raw') := by
  rw [canonicalWith, canonicalWith, String.ofList_inj]
  constructor
  · intro same
    exact writtenAlike_of_eq plain plain' same
  · intro alike
    generalize segments raw = pieces, segments raw' = pieces' at alike
    induction alike with
    | nil => rfl
    | cons first _ ih => rw [List.flatMap_cons, List.flatMap_cons, first.chars, ih]

/-! ## The length of an array -/

/-- Whatever name is chosen, a declared type begins with a `t`. -/
lemma canonicalChars_begins {text : List Char} {segment : Segment} {n : Nat}
    (found : declaredAt? text = some (segment, n)) (q : NodeId → Option String) :
    ∃ behind, canonicalChars q text = 't' :: behind := by
  obtain ⟨_, _, head, member, _, name, node, rfl⟩ := declaredAt?_some found
  obtain ⟨w, rfl, _⟩ := heads_untyped head member
  rw [canonicalChars_declared found]
  exact ⟨_, rfl⟩

lemma isPrefixOf_canonicalChars {w : List Char} (untyped : 't' ∉ w) (text : List Char) :
    w.isPrefixOf (canonicalChars q text) = w.isPrefixOf (canonicalChars q' text) := by
  induction text using pieces_induction generalizing w with
  | nil => rfl
  | char c rest none ih =>
    rw [canonicalChars_char none, canonicalChars_char none]
    cases w with
    | nil => rfl
    | cons a w =>
      have inner := ih (w := w) fun member => untyped (List.mem_cons_of_mem a member)
      rw [List.isPrefixOf, List.isPrefixOf, inner]
  | declared text segment n found ih =>
    obtain ⟨behind, begins⟩ := canonicalChars_begins found q
    obtain ⟨behind', begins'⟩ := canonicalChars_begins found q'
    rw [begins, begins']
    cases w with
    | nil => rfl
    | cons a w =>
      have other : (a == 't') = false := by
        apply beq_eq_false_iff_ne.2
        rintro rfl
        exact untyped List.mem_cons_self
      rw [List.isPrefixOf, List.isPrefixOf, other]
      rfl

lemma takeWhile_canonicalChars (text : List Char) :
    (canonicalChars q text).takeWhile Char.isDigit =
      (canonicalChars q' text).takeWhile Char.isDigit := by
  induction text using pieces_induction with
  | nil => rfl
  | char c rest none ih =>
    rw [canonicalChars_char none, canonicalChars_char none, List.takeWhile_cons,
      List.takeWhile_cons, ih]
  | declared text segment n found ih =>
    obtain ⟨behind, begins⟩ := canonicalChars_begins found q
    obtain ⟨behind', begins'⟩ := canonicalChars_begins found q'
    rw [begins, begins']
    rfl

lemma lengthIn?_canonicalChars (text : List Char) :
    lengthIn? (canonicalChars q text) = lengthIn? (canonicalChars q' text) := by
  have digits : (canonicalChars q text).takeWhile Char.isDigit =
      (canonicalChars q' text).takeWhile Char.isDigit := takeWhile_canonicalChars text
  have mark : "dyn".toList.isPrefixOf (canonicalChars q text) =
      "dyn".toList.isPrefixOf (canonicalChars q' text) := isPrefixOf_canonicalChars (by decide) text
  rw [lengthIn?, lengthIn?, digits, mark]

lemma heads_open : ∀ head ∈ declaredHeads, ∃ w, head = w ++ ['('] ∧
    ∀ c ∈ w, c ≠ '(' ∧ c ≠ ')' := by
  intro head member
  have last : ∀ head ∈ declaredHeads, head = head.dropLast ++ ['('] ∧
      head.dropLast.all fun c => c ≠ '(' ∧ c ≠ ')' := by decide +kernel
  obtain ⟨parts, plain⟩ := last head member
  exact ⟨_, parts, fun c hc => of_decide_eq_true (List.all_eq_true.1 plain c hc)⟩

/-- Bracket by bracket, the same length is found behind an array whichever names are chosen. -/
lemma lengthAfter?_canonicalChars {text : List Char} (plain : PlainNames q (segmentsFrom 0 text))
    (plain' : PlainNames q' (segmentsFrom 0 text)) (depth : Nat) :
    lengthAfter? depth (canonicalChars q text) = lengthAfter? depth (canonicalChars q' text) := by
  induction text using pieces_induction generalizing depth with
  | nil => rfl
  | char c rest none ih =>
    rw [segmentsFrom_char none] at plain plain'
    have inner := ih plain.tail plain'.tail
    rw [canonicalChars_char none, canonicalChars_char none]
    by_cases opens : c = '('
    · subst opens
      exact inner (depth + 1)
    · by_cases closes : c = ')'
      · subst closes
        cases depth with
        | zero => exact lengthIn?_canonicalChars rest
        | succ depth => exact inner depth
      · have other : ∀ d ∈ [c], d ≠ '(' ∧ d ≠ ')' := by
          intro d hd
          rw [List.mem_singleton.1 hd]
          exact ⟨opens, closes⟩
        have skips (text : List Char) := lengthAfter?_skip depth other text
        exact (skips _).trans ((inner depth).trans (skips _).symm)
  | declared text segment n found ih =>
    obtain ⟨pos, _, head, member, _, name, node, rfl⟩ := declaredAt?_some found
    obtain ⟨w, rfl, unmarked⟩ := heads_open head member
    rw [segmentsFrom_declared found pos] at plain plain'
    have closed {q : NodeId → Option String} (free : ∀ c ∈ shownName q name node,
        c ≠ '(' ∧ c ≠ ')') : lengthAfter? depth (canonicalChars q text) =
          lengthAfter? depth (canonicalChars q (text.drop n)) := by
      rw [canonicalChars_declared found, List.append_assoc, lengthAfter?_skip depth unmarked,
        List.cons_append, List.nil_append, lengthAfter?_open, lengthAfter?_skip _ free,
        lengthAfter?_close]
    rw [closed (plain _ _ _ List.mem_cons_self), closed (plain' _ _ _ List.mem_cons_self)]
    exact ih plain.tail plain'.tail depth

/-- The beginning of an array is copied from the text. -/
lemma array_copied {text behind : List Char} (h : canonicalChars q text = arrayHead ++ behind) :
    ∃ rest, segmentsFrom 0 text = copied arrayHead ++ segmentsFrom 0 rest := by
  cases text with
  | nil => cases h
  | cons c text =>
    cases found : declaredAt? (c :: text) with
    | none =>
      rw [canonicalChars_char found] at h
      have untyped : ¬ ['t', '_'] <:+: "_array(".toList := by decide +kernel
      have first : arrayHead = 't' :: "_array(".toList := by decide
      rw [first] at h ⊢
      obtain ⟨rfl, tail⟩ := List.cons.inj h
      obtain ⟨rest, _, pieces, _⟩ := copied_of_begins untyped (by decide) tail
      refine ⟨rest, ?_⟩
      rw [segmentsFrom_char found, pieces]
      rfl
    | some piece =>
      obtain ⟨segment, n⟩ := piece
      obtain ⟨_, _, head, member, _, name, node, rfl⟩ := declaredAt?_some found
      rw [canonicalChars_declared found, arrayHead_eq, List.append_assoc] at h
      have begins : head <+: arrayWord ++ (['('] ++ behind) := by
        rw [← h]
        exact List.prefix_append head _
      exact absurd begins (not_declared (Or.inr rfl) _ head member)

lemma arrayLength?_read {raw : String} {behind : List Char}
    (h : canonicalChars q (normalizeChars raw.toList) = arrayHead ++ behind) :
    arrayLength? (canonicalWith q raw) = lengthAfter? 0 behind := by
  have text : (canonicalWith q raw).toList = arrayHead ++ behind := by
    rw [canonicalWith, String.toList_ofList]
    exact h
  have begins : arrayHead.isPrefixOf (arrayHead ++ behind) :=
    List.isPrefixOf_iff_prefix.2 (List.prefix_append _ _)
  simp only [arrayLength?, text]
  rw [if_pos begins, List.drop_left]
  rfl

lemma arrayLength?_unread {raw : String}
    (h : ¬ arrayHead <+: canonicalChars q (normalizeChars raw.toList)) :
    arrayLength? (canonicalWith q raw) = none := by
  have text : (canonicalWith q raw).toList = canonicalChars q (normalizeChars raw.toList) := by
    rw [canonicalWith, String.toList_ofList]
    rfl
  simp only [arrayLength?, text]
  rw [if_neg fun begins => h (List.isPrefixOf_iff_prefix.1 begins)]

/-- The length of an array does not depend on the names that are chosen in its id. -/
lemma arrayLength?_names {raw : String} (plain : PlainNames q (segments raw))
    (plain' : PlainNames q' (segments raw)) :
    arrayLength? (canonicalWith q raw) = arrayLength? (canonicalWith q' raw) := by
  by_cases array : ∃ rest, segments raw = copied arrayHead ++ segmentsFrom 0 rest
  · obtain ⟨rest, pieces⟩ := array
    have put (p : NodeId → Option String) :
        canonicalChars p (normalizeChars raw.toList) = arrayHead ++ canonicalChars p rest := by
      rw [canonicalChars, ← segments, pieces, List.flatMap_append, copied_chars]
      rfl
    have inside {p : NodeId → Option String} (plain : PlainNames p (segments raw)) :
        PlainNames p (segmentsFrom 0 rest) := by
      intro head name node member
      rw [pieces] at plain
      exact plain head name node (List.mem_append_right _ member)
    rw [arrayLength?_read (put q), arrayLength?_read (put q')]
    exact lengthAfter?_canonicalChars (inside plain) (inside plain') 0
  · have unread (p : NodeId → Option String) : arrayLength? (canonicalWith p raw) = none := by
      apply arrayLength?_unread
      rintro ⟨behind, begins⟩
      exact array (array_copied begins.symm)
    rw [unread q, unread q']

end TypeId

end UpgradeSafety
