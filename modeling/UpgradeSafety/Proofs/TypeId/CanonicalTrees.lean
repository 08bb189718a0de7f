import UpgradeSafety.Proofs.TypeId.Locations

/-!
# The canonical ids of type trees

What is left of a type tree when the node ids of its declared types are dropped
and their names chosen anew. A declared type whose opening bracket was not
decoded is not recognized, and keeps its node id.
-/

namespace UpgradeSafety

namespace TypeId

variable {q : NodeId → Option String}

/-- The canonical text of a normalized one. -/
def canonicalChars (q : NodeId → Option String) (text : List Char) : List Char :=
  (segmentsFrom 0 text).flatMap (Segment.chars q)

lemma segmentsFrom_drop (skip : Nat) (text : List Char) :
    segmentsFrom skip text = segmentsFrom 0 (text.drop skip) := by
  induction skip generalizing text with
  | zero => rfl
  | succ skip ih =>
    cases text with
    | nil => rfl
    | cons c rest => exact ih rest

lemma segmentsFrom_char {c : Char} {rest : List Char} (h : declaredAt? (c :: rest) = none) :
    segmentsFrom 0 (c :: rest) = .char c :: segmentsFrom 0 rest := by
  rw [segmentsFrom, h]

lemma segmentsFrom_declared {text : List Char} {segment : Segment} {n : Nat}
    (h : declaredAt? text = some (segment, n)) (hn : 0 < n) :
    segmentsFrom 0 text = segment :: segmentsFrom 0 (text.drop n) := by
  cases text with
  | nil => cases h
  | cons c rest =>
    rw [segmentsFrom, h]
    simp only
    rw [segmentsFrom_drop, drop_letters hn]

/-- The pieces of a text in which no declared type begins. -/
def copied (text : List Char) : List Segment := text.map .char

@[simp] lemma copied_nil : copied [] = [] := rfl

@[simp] lemma copied_cons (c : Char) (text : List Char) :
    copied (c :: text) = .char c :: copied text := rfl

@[simp] lemma copied_append (v w : List Char) : copied (v ++ w) = copied v ++ copied w :=
  List.map_append

lemma copied_chars (text : List Char) : (copied text).flatMap (Segment.chars q) = text := by
  rw [copied, List.flatMap_map]
  exact List.flatMap_singleton' text

/-! ## Where no declared type begins -/

lemma declaredAt?_eq_none {text : List Char} (h : ∀ head ∈ declaredHeads, ¬ head <+: text) :
    declaredAt? text = none := by
  refine List.findSome?_eq_none_iff.2 fun head hm => ?_
  rw [if_neg (fun hp => h head hm (List.isPrefixOf_iff_prefix.1 hp))]

lemma declaredHeads_shape : ∀ head ∈ declaredHeads, head.head? = some 't' ∧ '(' ∈ head := by
  decide

lemma segmentsFrom_of_ne {c : Char} (hc : c ≠ 't') (rest : List Char) :
    segmentsFrom 0 (c :: rest) = .char c :: segmentsFrom 0 rest := by
  refine segmentsFrom_char (declaredAt?_eq_none fun head hm hp => hc ?_)
  have first := (declaredHeads_shape head hm).1
  cases head with
  | nil => cases first
  | cons d head => exact (List.cons_prefix_cons.1 hp).1.symm.trans (Option.some.inj first)

/-- A text that does not go on with a character of the beginning of a declared type. -/
def EndsWord (text : List Char) : Prop :=
  ∀ b ∈ text.head?, ∀ head ∈ declaredHeads, b ∉ head

lemma segmentsFrom_word {w : List Char} (word : ∀ c ∈ w, isWordChar c = true)
    {rest : List Char} (h : EndsWord rest) :
    segmentsFrom 0 (w ++ rest) = copied w ++ segmentsFrom 0 rest := by
  induction w with
  | nil => rfl
  | cons c w ih =>
    have inside : ∀ head ∈ declaredHeads, ¬ head <+: c :: w ++ rest := by
      intro head hm hp
      have within : head <+: c :: w := by
        cases rest with
        | nil => simpa using hp
        | cons b rest => exact prefix_before_break (h b rfl head hm) hp
      have bracket := word '(' (within.subset (declaredHeads_shape head hm).2)
      simp [isWordChar] at bracket
    have step := segmentsFrom_char (declaredAt?_eq_none inside)
    have tail := ih fun d hd => word d (List.mem_cons_of_mem c hd)
    exact step.trans (congrArg (.char c :: ·) tail)

/-- A text that ends or goes on with the mark behind a type inside another. -/
def EndsType (text : List Char) : Prop := text = [] ∨ ∃ b rest, text = b :: rest ∧ b ∈ [',', ')']

lemma EndsType.endsWord {text : List Char} (h : EndsType text) : EndsWord text := by
  obtain rfl | ⟨b, rest, rfl, hb⟩ := h
  · simp [EndsWord]
  · rintro c hc
    cases hc
    simp only [List.mem_cons, List.not_mem_nil, or_false] at hb
    rcases hb with rfl | rfl <;> decide

lemma endsType_comma (rest : List Char) : EndsType (',' :: rest) :=
  Or.inr ⟨',', rest, rfl, by decide⟩

lemma endsType_closing (rest : List Char) : EndsType (')' :: rest) :=
  Or.inr ⟨')', rest, rfl, by decide⟩

lemma segmentsFrom_tless {w : List Char} (h : 't' ∉ w) (rest : List Char) :
    segmentsFrom 0 (w ++ rest) = copied w ++ segmentsFrom 0 rest := by
  induction w with
  | nil => rfl
  | cons c w ih =>
    simp only [List.mem_cons, not_or] at h
    rw [List.cons_append, segmentsFrom_of_ne (Ne.symm h.1), ih h.2]
    rfl

/-- The third letter tells mappings and arrays from declared types. -/
lemma third_letter : ∀ head ∈ declaredHeads,
    3 ≤ head.length ∧ head.take 3 ≠ mappingWord.take 3 ∧ head.take 3 ≠ arrayWord.take 3 := by
  decide

lemma not_declared {w : List Char} (hw : w = mappingWord ∨ w = arrayWord) (rest : List Char) :
    ∀ head ∈ declaredHeads, ¬ head <+: w ++ rest := by
  intro head hm hp
  obtain ⟨long, notMapping, notArray⟩ := third_letter head hm
  have hlen : 3 ≤ w.length := by obtain rfl | rfl := hw <;> decide
  have same : head.take 3 = w.take 3 := by
    rw [List.prefix_iff_eq_take.1 hp, List.take_take, Nat.min_eq_left long,
      List.take_append_of_le_length hlen]
  obtain rfl | rfl := hw
  · exact notMapping same
  · exact notArray same

/-- The brackets of mappings and arrays begin no declared type. -/
lemma segmentsFrom_opening {w : List Char} (hw : w = mappingWord ∨ w = arrayWord)
    (rest : List Char) :
    segmentsFrom 0 (w ++ '(' :: rest) = copied w ++ .char '(' :: segmentsFrom 0 rest := by
  have none := declaredAt?_eq_none (not_declared hw ('(' :: rest))
  have shape : ∃ u, w = 't' :: u ∧ 't' ∉ u := by
    obtain rfl | rfl := hw
    · exact ⟨"_mapping".toList, by decide, by decide⟩
    · exact ⟨"_array".toList, by decide, by decide⟩
  obtain ⟨u, rfl, hu⟩ := shape
  rw [List.cons_append] at none ⊢
  rw [segmentsFrom_char none, segmentsFrom_tless hu, segmentsFrom_of_ne (by decide)]
  rfl

/-! ## Declared types -/

/-- What stands behind the beginning `head` of a declared type. -/
def segmentBehind (head named : List Char) : Option (Segment × Nat) :=
  let name := named.takeWhile (· ≠ ')')
  match named.drop name.length with
  | [] => none
  | _ :: after =>
    let digits := after.takeWhile Char.isDigit
    let separator := if digits ≠ [] ∧ (after.drop digits.length).head? = some '_' then 1 else 0
    let node := (Numeral.ofDigits? Numeral.bound63 digits).map Int.ofNat
    some (.declared head name node, head.length + name.length + 1 + digits.length + separator)

lemma declaredAt?_eq_segmentBehind (text : List Char) :
    declaredAt? text = declaredHeads.findSome? fun head =>
      if head.isPrefixOf text then segmentBehind head (text.drop head.length) else none := rfl

lemma heads_apart : ∀ head ∈ declaredHeads, ∀ other ∈ declaredHeads,
    head <+: other → head = other := by
  decide

lemma findSome?_of_only {α β : Type} {l : List α} {a : α} {f : α → Option β} (ha : a ∈ l)
    (only : ∀ b ∈ l, b ≠ a → f b = none) : l.findSome? f = f a := by
  cases hf : f a with
  | none =>
    refine List.findSome?_eq_none_iff.2 fun b hb => ?_
    by_cases h : b = a
    · rw [h, hf]
    · exact only b hb h
  | some x =>
    induction l with
    | nil => cases ha
    | cons b l ih =>
      by_cases h : b = a
      · rw [h, List.findSome?_cons, hf]
      · have hl : a ∈ l := (List.mem_cons.1 ha).resolve_left (Ne.symm h)
        rw [List.findSome?_cons, only b List.mem_cons_self h]
        exact ih hl fun c hc => only c (List.mem_cons_of_mem b hc)

lemma declaredAt?_append {head : List Char} (hm : head ∈ declaredHeads) (named : List Char) :
    declaredAt? (head ++ named) = segmentBehind head named := by
  have others : ∀ other ∈ declaredHeads, other ≠ head → ¬ other <+: head ++ named := by
    intro other ho hne hp
    rcases List.prefix_or_prefix_of_prefix hp (List.prefix_append head named) with h | h
    · exact hne (heads_apart other ho head hm h)
    · exact hne (heads_apart head hm other ho h).symm
  rw [declaredAt?_eq_segmentBehind, findSome?_of_only hm fun other ho hne =>
    if_neg fun hp => others other ho hne (List.isPrefixOf_iff_prefix.1 hp)]
  simp

/-- What may follow a declared type without being taken for a part of it. -/
lemma segmentBehind_name (head : List Char) {name : List Char}
    (hn : ∀ c ∈ name, isWordChar c = true) (node : Nat) {after : List Char}
    (ha : ∀ c ∈ after.head?, c.isDigit = false) :
    segmentBehind head (name ++ ')' :: (Numeral.digits node ++ after)) =
      some (.declared head name
          ((Numeral.ofDigits? Numeral.bound63 (Numeral.digits node)).map Int.ofNat),
        (head ++ name ++ ')' :: Numeral.digits node).length +
          if after.head? = some '_' then 1 else 0) := by
  have upToBracket : (name ++ ')' :: (Numeral.digits node ++ after)).takeWhile (· ≠ ')') =
      name := by
    rw [List.takeWhile_append_of_pos fun c hc => ?_]
    · simp
    · have : c ≠ ')' := by rintro rfl; simpa [isWordChar] using hn ')' hc
      simpa using this
  rw [segmentBehind]
  simp only [upToBracket, List.drop_left, takeWhile_digits node ha]
  simp [digits_ne_nil, Nat.add_assoc, Nat.add_comm]

/-- A node id as it is read: not at all if it has more than 63 bits. -/
def readNode? (node : Nat) : Option NodeId :=
  if node < Numeral.bound63 then some node else none

lemma ofDigits?_node (node : Nat) :
    (Numeral.ofDigits? Numeral.bound63 (Numeral.digits node)).map Int.ofNat = readNode? node := by
  rw [ofDigits?_digits_eq, readNode?]
  split <;> rfl

/-- The name that is chosen for a node whose number can be read. -/
def chosenName (q : NodeId → Option String) (node : Nat) : Option String :=
  if node < Numeral.bound63 then q node else none

lemma chosenName_eq (node : Nat) : (readNode? node).bind q = chosenName q node := by
  rw [readNode?, chosenName]
  split <;> rfl

end TypeId

namespace Spelling

/-- As it stands in a canonical id, where `q` may choose the name of a declared type. -/
@[simps]
def canonical (q : NodeId → Option String) : Spelling where
  opening := ['(']
  comma := [',']
  closing := [')']
  elementary := TypeId.unifyLocations
  declared kind name node pointer :=
    if name.isHidden then normalized.declared kind name node pointer
    else
      kind.head ++ '(' :: ((TypeId.chosenName q node).map String.toList).getD
        (TypeId.unifyLocations name.letters) ++ ')' :: (kind.locationText false).drop 1
  location _ := UpgradeSafety.locationText false

end Spelling

namespace TypeTree

open TypeId

/-- The pieces of a tree after its text has been normalized. -/
def pieces : TypeTree → List Segment
  | elementary id => copied (unifyLocations id.letters)
  | declared kind name node pointer =>
    if name.isHidden then copied (Spelling.normalized.declared kind name node pointer)
    else
      .declared (kind.head ++ ['(']) (unifyLocations name.letters) (readNode? node) ::
        copied ((kind.locationText false).drop 1)
  | mapping key value =>
    copied mappingWord ++ .char '(' :: (key.pieces ++ .char ',' :: (value.pieces ++ [.char ')']))
  | array element length _ =>
    copied arrayWord ++ .char '(' :: (element.pieces ++
      .char ')' :: copied (length.text ++ locationText false))

end TypeTree

namespace TypeId

lemma head_mem_declaredHeads (kind : DeclarationKind) : kind.head ++ ['('] ∈ declaredHeads := by
  cases kind <;> decide

lemma EndsType.head?_ne {text : List Char} (h : EndsType text) :
    ∀ c ∈ text.head?, c.isDigit = false ∧ c ≠ '_' := by
  obtain rfl | ⟨b, rest, rfl, hb⟩ := h
  · simp
  · rintro c hc
    cases hc
    simp only [List.mem_cons, List.not_mem_nil, or_false] at hb
    rcases hb with rfl | rfl <;> decide

lemma endsWord_mark {b : Char} (hb : ∀ head ∈ declaredHeads, b ∉ head) (rest : List Char) :
    EndsWord (b :: rest) := by
  rintro c hc
  cases hc
  exact hb

lemma segmentsFrom_hidden (kind : DeclarationKind) {name : DeclaredName}
    (hn : name.isHidden = true) (node : Nat) (pointer : Bool) {rest : List Char}
    (h : EndsType rest) :
    segmentsFrom 0 (Spelling.normalized.declared kind name node pointer ++ rest) =
      copied (Spelling.normalized.declared kind name node pointer) ++ segmentsFrom 0 rest := by
  have ended := segmentsFrom_word
    (word_append (isWordChar_digits node) (kind.locationText_word false)) h.endsWord
  have named := segmentsFrom_word (unifyLocations_word name.word)
    (endsWord_mark (b := ')') (by decide)
      (Numeral.digits node ++ (kind.locationText false ++ rest)))
  have head := segmentsFrom_word kind.head_word
    (endsWord_mark (b := '$') (by decide) ('_' :: (unifyLocations name.letters ++
      ')' :: (Numeral.digits node ++ (kind.locationText false ++ rest)))))
  simp only [List.append_assoc, copied_append] at ended
  simp only [Spelling.normalized_declared, DeclaredName.opening, hn, if_true, List.append_assoc,
    List.cons_append, List.nil_append, copied_append, copied_cons]
  rw [head, segmentsFrom_of_ne (by decide), segmentsFrom_of_ne (by decide), named,
    segmentsFrom_of_ne (by decide), ended]

lemma location_behind (kind : DeclarationKind) {rest : List Char} (h : EndsType rest) :
    (kind.locationText false ++ rest).drop
        (if (kind.locationText false ++ rest).head? = some '_' then 1 else 0) =
      (kind.locationText false).drop 1 ++ rest ∧
    ∀ c ∈ (kind.locationText false ++ rest).head?, c.isDigit = false := by
  by_cases hk : kind = .struct
  · subst hk
    exact ⟨rfl, by rintro c hc; cases hc; decide⟩
  · have none : kind.locationText false = [] := if_neg hk
    have notDash : rest.head? ≠ some '_' := fun hc => (h.head?_ne '_' hc).2 rfl
    rw [none, List.nil_append, if_neg notDash]
    exact ⟨rfl, fun c hc => (h.head?_ne c hc).1⟩

lemma segmentsFrom_shown (kind : DeclarationKind) {name : DeclaredName}
    (hn : name.isHidden = false) (node : Nat) (pointer : Bool) {rest : List Char}
    (h : EndsType rest) :
    segmentsFrom 0 (Spelling.normalized.declared kind name node pointer ++ rest) =
      .declared (kind.head ++ ['(']) (unifyLocations name.letters) (readNode? node) ::
        (copied ((kind.locationText false).drop 1) ++ segmentsFrom 0 rest) := by
  obtain ⟨behind, notDigit⟩ := location_behind kind h
  have segment := segmentBehind_name (kind.head ++ ['(']) (unifyLocations_word name.word)
    node notDigit
  have found := (declaredAt?_append (head_mem_declaredHeads kind) _).trans segment
  have text : Spelling.normalized.declared kind name node pointer ++ rest =
      kind.head ++ ['('] ++ (unifyLocations name.letters ++
        ')' :: (Numeral.digits node ++ (kind.locationText false ++ rest))) := by
    simp [DeclaredName.opening, hn]
  have parts : kind.head ++ ['('] ++ (unifyLocations name.letters ++
        ')' :: (Numeral.digits node ++ (kind.locationText false ++ rest))) =
      kind.head ++ ['('] ++ unifyLocations name.letters ++ ')' :: Numeral.digits node ++
        (kind.locationText false ++ rest) := by
    simp
  have tail : ∀ c ∈ (kind.locationText false).drop 1, isWordChar c = true := fun c hc =>
    kind.locationText_word false c (List.mem_of_mem_drop hc)
  rw [text, segmentsFrom_declared found (Nat.add_pos_left (List.length_pos_iff.2 (by simp)) _)]
  rw [parts, List.drop_length_add_append, behind, segmentsFrom_word tail h.endsWord,
    ofDigits?_node]

/-- The pieces of a normalized tree, also where more follows it. -/
lemma segmentsFrom_write (t : TypeTree) (rest : List Char) (h : EndsType rest) :
    segmentsFrom 0 (t.write .normalized ++ rest) = t.pieces ++ segmentsFrom 0 rest := by
  induction t generalizing rest with
  | elementary id =>
    simp only [TypeTree.write, TypeTree.pieces, Spelling.normalized_elementary]
    exact segmentsFrom_word (unifyLocations_word id.word) h.endsWord
  | declared kind name node pointer =>
    simp only [TypeTree.write, TypeTree.pieces]
    cases hn : name.isHidden with
    | false => exact segmentsFrom_shown kind hn node pointer h
    | true => exact segmentsFrom_hidden kind hn node pointer h
  | mapping key value ihk ihv =>
    simp only [TypeTree.write, TypeTree.pieces, Spelling.normalized_opening,
      Spelling.normalized_comma, Spelling.normalized_closing, List.append_assoc,
      List.cons_append, List.nil_append]
    rw [segmentsFrom_opening (Or.inl rfl), ihk _ (endsType_comma _),
      segmentsFrom_of_ne (by decide), ihv _ (endsType_closing _),
      segmentsFrom_of_ne (by decide)]
  | array element length pointer ih =>
    have ended := segmentsFrom_word
      (word_append length.text_word (locationText_word false)) h.endsWord
    simp only [List.append_assoc] at ended
    simp only [TypeTree.write, TypeTree.pieces, Spelling.normalized_opening,
      Spelling.normalized_closing, Spelling.normalized_location, List.append_assoc,
      List.cons_append, List.nil_append]
    rw [segmentsFrom_opening (Or.inr rfl), ih _ (endsType_closing _),
      segmentsFrom_of_ne (by decide), ended]

/-- The pieces of a tree, written without node ids under the chosen names. -/
lemma pieces_chars (q : NodeId → Option String) (t : TypeTree) :
    t.pieces.flatMap (Segment.chars q) = t.write (.canonical q) := by
  induction t with
  | elementary id =>
    simp only [TypeTree.pieces, TypeTree.write, Spelling.canonical_elementary, copied_chars]
  | declared kind name node pointer =>
    simp only [TypeTree.pieces, TypeTree.write, Spelling.canonical_declared]
    cases name.isHidden with
    | false =>
      simp only [Bool.false_eq_true, if_false, List.flatMap_cons, copied_chars, Segment.chars,
        chosenName_eq, List.append_assoc, List.cons_append, List.nil_append]
    | true => simp only [if_true, copied_chars]
  | mapping key value ihk ihv =>
    simp only [TypeTree.pieces, TypeTree.write, Spelling.canonical_opening,
      Spelling.canonical_comma, Spelling.canonical_closing, List.flatMap_append,
      List.flatMap_cons, List.flatMap_nil, copied_chars, Segment.chars, ihk, ihv,
      List.append_assoc, List.cons_append, List.nil_append]
  | array element length pointer ih =>
    simp only [TypeTree.pieces, TypeTree.write, Spelling.canonical_opening,
      Spelling.canonical_closing, Spelling.canonical_location, List.flatMap_append,
      List.flatMap_cons, copied_chars, Segment.chars, ih, List.append_assoc, List.cons_append,
      List.nil_append]

/-- The pieces of an encoded tree are those of the tree. -/
lemma segments_encode (t : TypeTree) (keys : t.KeysPlain) : segments t.encode = t.pieces := by
  have written := segmentsFrom_write t [] (Or.inl rfl)
  rw [List.append_nil, segmentsFrom, List.append_nil] at written
  rw [segments, TypeTree.encode, String.toList_ofList, normalizeChars_write t keys]
  exact written

/-- The canonical id of an encoded tree is the tree in its canonical spelling. -/
lemma canonicalWith_encode (q : NodeId → Option String) (t : TypeTree) (keys : t.KeysPlain) :
    canonicalWith q t.encode = String.ofList (t.write (.canonical q)) := by
  rw [canonicalWith, segments_encode t keys, pieces_chars]

end TypeId

end UpgradeSafety
