import UpgradeSafety.Proofs.TypeId.Renderings

/-!
# Which types share a canonical id

A canonical id can be read back, word by word and bracket by bracket, into the
tree that it was written for. What cannot be read back is whether a name spelled
out a storage pointer: it is then written as if it spelled out a storage
reference, and two declarations may be taken for one.
-/

namespace UpgradeSafety

namespace TypeTree

/-- Two trees are alike up to node ids and storage pointers, their names up to `same`. -/
inductive Matches (same : DeclaredName → DeclaredName → Prop) : TypeTree → TypeTree → Prop
  | elementary {a b : ElementaryId}
      (h : TypeId.unifyLocations a.letters = TypeId.unifyLocations b.letters) :
      Matches same (elementary a) (elementary b)
  | declared {m n : DeclaredName} (kind : DeclarationKind) (i j : Nat) (p r : Bool)
      (h : same m n) : Matches same (declared kind m i p) (declared kind n j r)
  | mapping {k l v w : TypeTree} (keys : Matches same k l) (values : Matches same v w) :
      Matches same (mapping k v) (mapping l w)
  | array {e f : TypeTree} (length : ArrayLength) (p r : Bool) (elements : Matches same e f) :
      Matches same (array e length p) (array f length r)

/-- Two names that read alike once storage pointers are written as references. -/
def SameUnified (m n : DeclaredName) : Prop :=
  TypeId.unifyLocations m.letters = TypeId.unifyLocations n.letters

namespace Matches

variable {same : DeclaredName → DeclaredName → Prop} {t u : TypeTree}

lemma strengthen {finer : DeclaredName → DeclaredName → Prop} (h : t.Matches same u)
    (names : ∀ m ∈ t.names, ∀ n ∈ u.names, same m n → finer m n) : t.Matches finer u := by
  induction h with
  | elementary h => exact .elementary h
  | declared kind i j p r h =>
    exact .declared kind i j p r (names _ List.mem_cons_self _ List.mem_cons_self h)
  | mapping _ _ ihk ihv =>
    apply Matches.mapping
    · apply ihk
      intro m hm n hn
      exact names m (List.mem_append_left _ hm) n (List.mem_append_left _ hn)
    · apply ihv
      intro m hm n hn
      exact names m (List.mem_append_right _ hm) n (List.mem_append_right _ hn)
  | array length p r _ ih => exact .array length p r (ih names)

lemma names_length (h : t.Matches same u) : t.names.length = u.names.length := by
  induction h with
  | elementary h => rfl
  | declared kind i j p r h => rfl
  | mapping _ _ ihk ihv => simp only [names, List.length_append, ihk, ihv]
  | array length p r _ ih => exact ih

lemma names_eq (h : t.Matches Eq u) : t.names = u.names := by
  induction h with
  | elementary h => rfl
  | declared kind i j p r h => rw [h]; rfl
  | mapping _ _ ihk ihv => simp only [names, ihk, ihv]
  | array length p r _ ih => exact ih

lemma of_names_eq (h : t.Matches same u) (names : t.names = u.names) : t.Matches Eq u := by
  induction h with
  | elementary h => exact .elementary h
  | declared kind i j p r h => exact .declared kind i j p r (List.head_eq_of_cons_eq names)
  | mapping keys values ihk ihv =>
    obtain ⟨inKeys, inValues⟩ := List.append_inj names keys.names_length
    exact .mapping (ihk inKeys) (ihv inValues)
  | array length p r _ ih => exact .array length p r (ih names)

end Matches

end TypeTree

namespace TypeId

/-- The spelling of canonical ids in which each declared type keeps its name. -/
abbrev plainly : Spelling := .canonical fun _ => none

lemma plainly_declared (kind : DeclarationKind) {name : DeclaredName} (node : Nat) (pointer : Bool)
    (shown : name.isHidden = false) :
    plainly.declared kind name node pointer =
      kind.head ++ '(' :: (unifyLocations name.letters ++
        ')' :: (kind.locationText false).drop 1) := by
  have kept : chosenName (fun _ => none) node = none := by
    rw [chosenName, ite_self]
  rw [Spelling.canonical_declared, shown, kept]
  simp

/-- Trees that match are written in the same way. -/
lemma write_congr {t u : TypeTree} (h : t.Matches TypeTree.SameUnified u) (lt : t.Lettered)
    (lu : u.Lettered) : t.write plainly = u.write plainly := by
  induction h with
  | elementary h => exact h
  | declared kind i j p r h =>
    have hm := plainly_declared kind i p (lt _ List.mem_cons_self)
    have hn := plainly_declared kind j r (lu _ List.mem_cons_self)
    rw [TypeTree.write, TypeTree.write, hm, hn, h]
  | mapping _ _ ihk ihv =>
    have inKeys := ihk (fun name member => lt name (List.mem_append_left _ member))
      fun name member => lu name (List.mem_append_left _ member)
    have inValues := ihv (fun name member => lt name (List.mem_append_right _ member))
      fun name member => lu name (List.mem_append_right _ member)
    rw [TypeTree.write, TypeTree.write, inKeys, inValues]
  | array length p r _ ih =>
    rw [TypeTree.write, TypeTree.write, ih lt lu]
    rfl

/-! ## Reading a canonical id back -/

/-- A text that does not go on with a letter, a digit or an underscore. -/
def EndsLetters (text : List Char) : Prop := ∀ c ∈ text.head?, isWordChar c = false

lemma EndsType.endsLetters {text : List Char} (h : EndsType text) : EndsLetters text := by
  obtain rfl | ⟨b, rest, rfl, hb⟩ := h
  · simp [EndsLetters]
  · rintro c hc
    cases hc
    simp only [List.mem_cons, List.not_mem_nil, or_false] at hb
    rcases hb with rfl | rfl <;> decide

lemma endsLetters_mark {b : Char} (hb : isWordChar b = false) (rest : List Char) :
    EndsLetters (b :: rest) := by
  rintro c hc
  cases hc
  exact hb

lemma takeWhile_word {w : List Char} (word : ∀ c ∈ w, isWordChar c = true) {rest : List Char}
    (h : EndsLetters rest) : (w ++ rest).takeWhile isWordChar = w := by
  rw [List.takeWhile_append_of_pos word]
  cases rest with
  | nil => simp
  | cons c rest => simp [h c rfl]

/-- Two words that are followed by a mark, or by nothing, are read back from the text. -/
lemma words_eq {v w : List Char} (hv : ∀ c ∈ v, isWordChar c = true)
    (hw : ∀ c ∈ w, isWordChar c = true) {x y : List Char} (hx : EndsLetters x)
    (hy : EndsLetters y) (same : v ++ x = w ++ y) : v = w ∧ x = y := by
  have words : v = w := by
    rw [← takeWhile_word hv hx, same, takeWhile_word hw hy]
  subst words
  exact ⟨rfl, List.append_cancel_left same⟩

lemma text_injective {length other : ArrayLength} (h : length.text = other.text) :
    length = other := by
  have undigited (n : Nat) : Numeral.digits n ≠ "dyn".toList := fun hn =>
    absurd (digits_word n 'd' (hn ▸ by decide)) (by decide)
  cases length with
  | fixed n =>
    cases other with
    | fixed m =>
      have bounded := congrArg (Numeral.ofDigits? (n + m + 1)) h
      simp only [ArrayLength.text, ofDigits?_digits_eq] at bounded
      rw [if_pos (by omega), if_pos (by omega)] at bounded
      rw [Option.some.inj bounded]
    | dynamic => exact absurd h (undigited n)
  | dynamic =>
    cases other with
    | fixed m => exact absurd h.symm (undigited m)
    | dynamic => rfl

/-- The word that a canonical id begins with. -/
def headWord : TypeTree → List Char
  | .elementary id => unifyLocations id.letters
  | .declared kind _ _ _ => kind.head
  | .mapping _ _ => mappingWord
  | .array _ _ _ => arrayWord

/-- What follows the first word of a canonical id. -/
def inBrackets : TypeTree → List Char
  | .elementary _ => []
  | .declared kind name _ _ =>
    '(' :: (unifyLocations name.letters ++ ')' :: (kind.locationText false).drop 1)
  | .mapping key value => '(' :: (key.write plainly ++ ',' :: (value.write plainly ++ [')']))
  | .array element length _ =>
    '(' :: (element.write plainly ++ ')' :: (length.text ++ locationText false))

lemma write_plainly {t : TypeTree} (lettered : t.Lettered) :
    t.write plainly = headWord t ++ inBrackets t := by
  cases t with
  | elementary id => exact (List.append_nil _).symm
  | declared kind name node pointer =>
    exact plainly_declared kind node pointer (lettered _ List.mem_cons_self)
  | mapping key value =>
    simp only [TypeTree.write, headWord, inBrackets, Spelling.canonical_opening,
      Spelling.canonical_comma, Spelling.canonical_closing, List.append_assoc, List.cons_append,
      List.nil_append]
  | array element length pointer =>
    simp only [TypeTree.write, headWord, inBrackets, Spelling.canonical_opening,
      Spelling.canonical_closing, Spelling.canonical_location, List.append_assoc,
      List.cons_append, List.nil_append]

lemma headWord_word (t : TypeTree) : ∀ c ∈ headWord t, isWordChar c = true := by
  cases t with
  | elementary id => exact unifyLocations_word id.word
  | declared kind name node pointer => exact kind.head_word
  | mapping key value => exact mappingWord_word
  | array element length pointer => exact arrayWord_word

lemma endsLetters_inBrackets (t : TypeTree) {rest : List Char} (h : EndsType rest) :
    EndsLetters (inBrackets t ++ rest) := by
  cases t with
  | elementary id => exact h.endsLetters
  | declared kind name node pointer => exact endsLetters_mark (by decide) _
  | mapping key value => exact endsLetters_mark (by decide) _
  | array element length pointer => exact endsLetters_mark (by decide) _

/-- Canonical ids that agree, also where more follows them, have one first word. -/
lemma heads_eq {t u : TypeTree} (lt : t.Lettered) (lu : u.Lettered) {r r' : List Char}
    (hr : EndsType r) (hr' : EndsType r')
    (same : t.write plainly ++ r = u.write plainly ++ r') :
    headWord t = headWord u ∧ inBrackets t ++ r = inBrackets u ++ r' := by
  rw [write_plainly lt, write_plainly lu, List.append_assoc, List.append_assoc] at same
  exact words_eq (headWord_word t) (headWord_word u) (endsLetters_inBrackets t hr)
    (endsLetters_inBrackets u hr') same

lemma opened_ne {rest : List Char} (h : EndsType rest) (inside : List Char) :
    rest ≠ '(' :: inside := by
  rintro rfl
  rcases h with h | ⟨b, tail, h, hb⟩
  · cases h
  · cases h
    exact absurd hb (by decide)

/-- Only an elementary type is written without brackets. -/
lemma elementary_of_ends {t : TypeTree} {rest : List Char}
    (h : EndsType (inBrackets t ++ rest)) : ∃ id, t = .elementary id := by
  cases t with
  | elementary id => exact ⟨id, rfl⟩
  | declared kind name node pointer => exact absurd rfl (opened_ne h _)
  | mapping key value => exact absurd rfl (opened_ne h _)
  | array element length pointer => exact absurd rfl (opened_ne h _)

lemma mappingWord_ne : mappingWord ≠ arrayWord := by decide

lemma head_ne (kind : DeclarationKind) : kind.head ≠ mappingWord ∧ kind.head ≠ arrayWord := by
  cases kind <;> decide

/-- What stands in the brackets of a declared type tells its name. -/
lemma named_inj (kind : DeclarationKind) {m n : DeclaredName} {r r' : List Char}
    (same : unifyLocations m.letters ++ ')' :: (kind.locationText false).drop 1 ++ r =
      unifyLocations n.letters ++ ')' :: (kind.locationText false).drop 1 ++ r') :
    TypeTree.SameUnified m n ∧ r = r' := by
  rw [List.append_assoc, List.append_assoc] at same
  obtain ⟨names, behind⟩ := words_eq (unifyLocations_word m.word) (unifyLocations_word n.word)
    (endsLetters_mark (by decide) _) (endsLetters_mark (by decide) _) same
  exact ⟨names, List.append_cancel_left (List.tail_eq_of_cons_eq behind)⟩

/-- What stands behind the brackets of an array tells its length. -/
lemma length_inj {length other : ArrayLength} {r r' : List Char} (hr : EndsType r)
    (hr' : EndsType r') (same : length.text ++ locationText false ++ r =
      other.text ++ locationText false ++ r') : length = other ∧ r = r' := by
  obtain ⟨texts, rests⟩ := words_eq (word_append length.text_word (locationText_word false))
    (word_append other.text_word (locationText_word false)) hr.endsLetters hr'.endsLetters same
  exact ⟨text_injective (List.append_cancel_right texts), rests⟩

/--
Two canonical ids that agree, also where more follows them, were written for
trees that match. The words in front tell the constructors apart.
-/
lemma matches_of_write {t u : TypeTree} (lt : t.Lettered) (lu : u.Lettered) {r r' : List Char}
    (hr : EndsType r) (hr' : EndsType r')
    (same : t.write plainly ++ r = u.write plainly ++ r') :
    t.Matches TypeTree.SameUnified u ∧ r = r' := by
  induction t generalizing u r r' with
  | elementary a =>
    obtain ⟨heads, behind⟩ := heads_eq lt lu hr hr' same
    have ends : EndsType (inBrackets u ++ r') := by
      rw [← behind]
      exact hr
    obtain ⟨b, rfl⟩ := elementary_of_ends ends
    exact ⟨.elementary heads, behind⟩
  | declared kind m i p =>
    obtain ⟨heads, behind⟩ := heads_eq lt lu hr hr' same
    cases u with
    | elementary b => exact absurd behind.symm (opened_ne hr' _)
    | declared other n j q =>
      obtain rfl := DeclarationKind.head_injective heads
      obtain ⟨names, rests⟩ := named_inj kind (List.tail_eq_of_cons_eq behind)
      exact ⟨.declared kind i j p q names, rests⟩
    | mapping l w => exact absurd heads (head_ne kind).1
    | array f other q => exact absurd heads (head_ne kind).2
  | mapping k v ihk ihv =>
    obtain ⟨heads, behind⟩ := heads_eq lt lu hr hr' same
    cases u with
    | elementary b => exact absurd behind.symm (opened_ne hr' _)
    | declared kind n j q => exact absurd heads.symm (head_ne kind).1
    | mapping l w =>
      simp only [inBrackets, List.append_assoc, List.cons_append, List.nil_append] at behind
      have inside := List.tail_eq_of_cons_eq behind
      obtain ⟨keys, rest⟩ := ihk (fun name member => lt name (List.mem_append_left _ member))
        (fun name member => lu name (List.mem_append_left _ member)) (endsType_comma _)
        (endsType_comma _) inside
      obtain ⟨values, closed⟩ := ihv (fun name member => lt name (List.mem_append_right _ member))
        (fun name member => lu name (List.mem_append_right _ member)) (endsType_closing _)
        (endsType_closing _) (List.tail_eq_of_cons_eq rest)
      exact ⟨.mapping keys values, List.tail_eq_of_cons_eq closed⟩
    | array f other q => exact absurd heads mappingWord_ne
  | array e length p ih =>
    obtain ⟨heads, behind⟩ := heads_eq lt lu hr hr' same
    cases u with
    | elementary b => exact absurd behind.symm (opened_ne hr' _)
    | declared kind n j q => exact absurd heads.symm (head_ne kind).2
    | mapping l w => exact absurd heads.symm mappingWord_ne
    | array f other q =>
      simp only [inBrackets, List.append_assoc, List.cons_append] at behind
      have inside := List.tail_eq_of_cons_eq behind
      obtain ⟨elements, closed⟩ :=
        ih (u := f) lt lu (endsType_closing _) (endsType_closing _) inside
      have texts := List.tail_eq_of_cons_eq closed
      simp only [← List.append_assoc] at texts
      obtain ⟨rfl, rests⟩ := length_inj hr hr' texts
      exact ⟨.array length p q elements, rests⟩

lemma canonical_eq_iff_matches {t u : TypeTree} (keys : t.KeysPlain ∧ u.KeysPlain)
    (lettered : t.Lettered ∧ u.Lettered) :
    canonical t.encode = canonical u.encode ↔ t.Matches TypeTree.SameUnified u := by
  have first : canonical t.encode = String.ofList (t.write plainly) :=
    canonicalWith_encode _ t keys.1
  have second : canonical u.encode = String.ofList (u.write plainly) :=
    canonicalWith_encode _ u keys.2
  rw [first, second, String.ofList_inj]
  constructor
  · intro same
    have same : t.write plainly ++ [] = u.write plainly ++ [] := congrArg (· ++ []) same
    exact (matches_of_write lettered.1 lettered.2 (Or.inl rfl) (Or.inl rfl) same).1
  · intro matched
    exact write_congr matched lettered.1 lettered.2

/--
Two types have the same canonical id exactly if they are equal up to node ids,
storage pointers and storage pointers that are spelled out in their names. So
they are equal up to node ids and storage pointers exactly if, moreover, their
names agree.
-/
theorem canonical_eq_iff (t u : TypeTree) (keys : t.KeysPlain ∧ u.KeysPlain)
    (lettered : t.Lettered ∧ u.Lettered) :
    (canonical t.encode = canonical u.encode ↔ t.Matches TypeTree.SameUnified u) ∧
      (canonical t.encode = canonical u.encode →
        (t.Matches Eq u ↔ t.names = u.names)) := by
  have matching := canonical_eq_iff_matches keys lettered
  constructor
  · exact matching
  · intro same
    constructor
    · intro matched
      exact matched.names_eq
    · intro names
      exact (matching.1 same).of_names_eq names

/-- A struct type, declared at another node and met through a pointer. -/
def structMoved (name : DeclaredName) : TypeTree := .declared .struct name 40 true

theorem moved_structs_share_id :
    canonical (structNamed nameS).encode = canonical (structMoved nameS).encode ∧
      (structNamed nameS).Matches Eq (structMoved nameS) := by
  obtain ⟨matching, naming⟩ := canonical_eq_iff (structNamed nameS) (structMoved nameS)
    ⟨trivial, trivial⟩ ⟨by decide, by decide⟩
  have same := matching.2 (.declared .struct 12 40 false true rfl)
  exact ⟨same, (naming same).2 rfl⟩

def oldStorage : DeclaredName :=
  ⟨"Old_storage".toList, by decide, word_of_all (by decide), undigited_of_all (by decide)⟩

def oldStoragePtr : DeclaredName :=
  ⟨"Old_storage_ptr".toList, by decide, word_of_all (by decide), undigited_of_all (by decide)⟩

theorem canonical_storage_ptr_merges :
    (canonical (structNamed oldStorage).encode = canonical (structNamed oldStoragePtr).encode) ∧
      ¬ (structNamed oldStorage).Matches Eq (structNamed oldStoragePtr) := by
  constructor
  · decide +kernel
  · intro matched
    exact absurd (congrArg (List.map DeclaredName.letters) matched.names_eq) (by decide)

lemma eq_of_letters {m n : DeclaredName} (h : m.letters = n.letters) : m = n := by
  cases m
  cases n
  cases h
  rfl

/-- If no name spells out a storage pointer, then different types have different ids. -/
theorem canonical_injective {t u : TypeTree} (keys : t.KeysPlain ∧ u.KeysPlain)
    (lettered : t.Lettered ∧ u.Lettered) (unlocated : t.Unlocated ∧ u.Unlocated)
    (same : canonical t.encode = canonical u.encode) : t.Matches Eq u := by
  apply ((canonical_eq_iff_matches keys lettered).1 same).strengthen
  intro m hm n hn unified
  rw [TypeTree.SameUnified, unifyLocations, unifyLocations,
    replaceFrom_of_absent (unlocated.1 m hm),
    replaceFrom_of_absent (unlocated.2 n hn)] at unified
  exact eq_of_letters unified

end TypeId

end UpgradeSafety
