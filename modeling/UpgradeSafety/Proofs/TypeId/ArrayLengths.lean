import UpgradeSafety.Proofs.TypeId.CanonicalTrees

/-!
# Which length is read from an array's id

The length of an array is looked up by counting brackets. Every declared type
whose opening bracket was not decoded leaves one closing bracket too many, so
the length is read behind an inner bracket as soon as the element type has one
of them. Where it has none, the length read is the declared one.
-/

namespace UpgradeSafety

namespace TypeTree

/-- The names of the declared types in a tree. -/
def names : TypeTree → List DeclaredName
  | elementary _ => []
  | declared _ name _ _ => [name]
  | mapping key value => key.names ++ value.names
  | array element _ _ => element.names

/-- The number of closing brackets whose opening bracket was not decoded. -/
def unopened (t : TypeTree) : Nat := t.names.countP DeclaredName.isHidden

lemma unopened_eq_zero (t : TypeTree) :
    t.unopened = 0 ↔ ∀ name ∈ t.names, name.isHidden = false := by
  simp [unopened, List.countP_eq_zero]

lemma unopened_mapping (key value : TypeTree) :
    (mapping key value).unopened = key.unopened + value.unopened := List.countP_append

lemma unopened_array (element : TypeTree) (length : ArrayLength) (pointer : Bool) :
    (array element length pointer).unopened = element.unopened := rfl

end TypeTree

/-- The length that is stored, if it fits in a storage word. -/
def ArrayLength.inWord? : ArrayLength → Option ArrayLength
  | .fixed n => if n < Numeral.bound256 then some (.fixed n) else none
  | .dynamic => some .dynamic

/-- Whether the length is one that the language allows. -/
def ArrayLength.Fits : ArrayLength → Prop
  | .fixed n => n < Numeral.bound256
  | .dynamic => True

instance : DecidablePred ArrayLength.Fits
  | .fixed n => inferInstanceAs (Decidable (n < Numeral.bound256))
  | .dynamic => inferInstanceAs (Decidable True)

lemma ArrayLength.Fits.inWord? {length : ArrayLength} (fits : length.Fits) :
    length.inWord? = some length := by
  cases length with
  | fixed n => exact if_pos fits
  | dynamic => rfl

/--
The length read behind the closing bracket that ends the last of `depth + 1` open
ones, in a tree with more unopened brackets than `depth`.
-/
def TypeTree.lengthBehind : Nat → TypeTree → Option ArrayLength
  | _, .elementary _ => none
  | _, .declared _ _ node _ => (ArrayLength.fixed node).inWord?
  | depth, .mapping key value =>
    if depth + 1 < key.unopened then key.lengthBehind (depth + 1)
    else if depth + 1 - key.unopened < value.unopened then
      value.lengthBehind (depth + 1 - key.unopened)
    else none
  | depth, .array element length _ =>
    if depth + 1 < element.unopened then element.lengthBehind (depth + 1) else length.inWord?

namespace TypeId

/-! ## Counting brackets -/

/-- The length at the front of what follows a closing bracket. -/
def lengthIn? (text : List Char) : Option ArrayLength :=
  if "dyn".toList.isPrefixOf text then some .dynamic
  else (Numeral.ofDigits? Numeral.bound256 (text.takeWhile Char.isDigit)).map .fixed

/-- The length behind the bracket that closes the last of `depth + 1` open ones. -/
def lengthAfter? (depth : Nat) (text : List Char) : Option ArrayLength :=
  (afterClosing depth text).bind lengthIn?

@[simp] lemma lengthAfter?_open (depth : Nat) (rest : List Char) :
    lengthAfter? depth ('(' :: rest) = lengthAfter? (depth + 1) rest := rfl

@[simp] lemma lengthAfter?_close (depth : Nat) (rest : List Char) :
    lengthAfter? (depth + 1) (')' :: rest) = lengthAfter? depth rest := rfl

@[simp] lemma lengthAfter?_last (rest : List Char) :
    lengthAfter? 0 (')' :: rest) = lengthIn? rest := rfl

lemma lengthAfter?_skip (depth : Nat) {w : List Char} (plain : ∀ c ∈ w, c ≠ '(' ∧ c ≠ ')')
    (rest : List Char) : lengthAfter? depth (w ++ rest) = lengthAfter? depth rest := by
  induction w with
  | nil => rfl
  | cons c w ih =>
    obtain ⟨notOpen, notClose⟩ := plain c List.mem_cons_self
    have step : afterClosing depth (c :: (w ++ rest)) = afterClosing depth (w ++ rest) := by
      rw [afterClosing] <;> simp_all
    have tail := ih fun d hd => plain d (List.mem_cons_of_mem c hd)
    rw [List.cons_append, lengthAfter?, step]
    exact tail

lemma lengthAfter?_comma (depth : Nat) (rest : List Char) :
    lengthAfter? depth (',' :: rest) = lengthAfter? depth rest := by
  cases depth <;> rfl

lemma ne_brackets_of_word {c : Char} (h : isWordChar c = true) : c ≠ '(' ∧ c ≠ ')' := by
  constructor <;> rintro rfl <;> simp [isWordChar] at h

lemma lengthAfter?_word (depth : Nat) {w : List Char} (word : ∀ c ∈ w, isWordChar c = true)
    (rest : List Char) : lengthAfter? depth (w ++ rest) = lengthAfter? depth rest :=
  lengthAfter?_skip depth (fun c hc => ne_brackets_of_word (word c hc)) rest

/-! ## Reading a length -/

lemma lengthIn?_number (n : Nat) {rest : List Char} (h : ∀ c ∈ rest.head?, c.isDigit = false) :
    lengthIn? (Numeral.digits n ++ rest) = (ArrayLength.fixed n).inWord? := by
  obtain ⟨c, digits, hd⟩ := List.exists_cons_of_ne_nil (digits_ne_nil n)
  have first : c.isDigit = true := digits_word n c (by rw [hd]; exact List.mem_cons_self)
  have notDynamic : ¬ "dyn".toList.isPrefixOf (Numeral.digits n ++ rest) := by
    intro hp
    have hc := (List.cons_prefix_cons.1 (by simpa [hd] using hp)).1
    rw [← hc] at first
    exact absurd first (by decide)
  rw [lengthIn?, if_neg notDynamic, takeWhile_digits n h, ofDigits?_digits_eq,
    ArrayLength.inWord?]
  split <;> rfl

lemma lengthIn?_text (length : ArrayLength) {rest : List Char}
    (h : ∀ c ∈ rest.head?, c.isDigit = false) :
    lengthIn? (length.text ++ rest) = length.inWord? := by
  cases length with
  | fixed n => exact lengthIn?_number n h
  | dynamic =>
    have dynamic : "dyn".toList.isPrefixOf (ArrayLength.dynamic.text ++ rest) := by
      exact List.isPrefixOf_iff_prefix.2 (List.prefix_append "dyn".toList rest)
    rw [lengthIn?, if_pos dynamic]
    rfl

/-- No length stands behind the bracket that closes a mapping. -/
lemma lengthIn?_none {rest : List Char} (h : EndsType rest) : lengthIn? rest = none := by
  obtain rfl | ⟨b, rest, rfl, hb⟩ := h
  · rfl
  · simp only [List.mem_cons, List.not_mem_nil, or_false] at hb
    rcases hb with rfl | rfl <;> rfl

/-! ## Counting the brackets of a tree -/

section Counting
variable {q : NodeId → Option String}

/-- No chosen name holds a bracket. -/
def BracketFree (q : NodeId → Option String) : Prop :=
  ∀ node name, q node = some name → ∀ c ∈ name.toList, c ≠ '(' ∧ c ≠ ')'

lemma bracketFree_none : BracketFree fun _ => none := fun _ _ h => nomatch h

lemma plain_chosenName (free : BracketFree q) (name : DeclaredName) (node : Nat) :
    ∀ c ∈ ((chosenName q node).map String.toList).getD (unifyLocations name.letters),
      c ≠ '(' ∧ c ≠ ')' := by
  intro c hc
  cases h : chosenName q node with
  | none =>
    rw [h] at hc
    exact ne_brackets_of_word (unifyLocations_word name.word c hc)
  | some chosen =>
    rw [h] at hc
    have origin : q node = some chosen := by
      rw [chosenName] at h
      split at h
      · exact h
      · cases h
    exact free node chosen origin c hc

/-- A declared type closes the bracket that it opens, if its bracket was decoded. -/
lemma lengthAfter?_shown (free : BracketFree q) (kind : DeclarationKind) {name : DeclaredName}
    (hn : name.isHidden = false) (node : Nat) (pointer : Bool) (depth : Nat) (rest : List Char) :
    lengthAfter? depth ((Spelling.canonical q).declared kind name node pointer ++ rest) =
      lengthAfter? depth rest := by
  have tail : ∀ c ∈ (kind.locationText false).drop 1, isWordChar c = true := fun c hc =>
    kind.locationText_word false c (List.mem_of_mem_drop hc)
  simp only [Spelling.canonical_declared, hn, Bool.false_eq_true, if_false, List.append_assoc,
    List.cons_append]
  rw [lengthAfter?_word depth kind.head_word, lengthAfter?_open,
    lengthAfter?_skip _ (plain_chosenName free name node), lengthAfter?_close,
    lengthAfter?_word depth tail]

/-- Up to the bracket that a declared type closes without having opened it. -/
lemma lengthAfter?_hidden (kind : DeclarationKind) {name : DeclaredName}
    (hn : name.isHidden = true) (node : Nat) (pointer : Bool) (depth : Nat) (rest : List Char) :
    lengthAfter? depth ((Spelling.canonical q).declared kind name node pointer ++ rest) =
      lengthAfter? depth
        (')' :: (Numeral.digits node ++ (kind.locationText false ++ rest))) := by
  have mark : ∀ c ∈ ['$', '_'], c ≠ '(' ∧ c ≠ ')' := by simp
  simp only [Spelling.canonical_declared, Spelling.normalized_declared, DeclaredName.opening, hn,
    if_true, List.append_assoc, List.cons_append]
  rw [lengthAfter?_word depth kind.head_word, ← List.cons_append, ← List.cons_append,
    lengthAfter?_skip depth mark,
    lengthAfter?_word depth (unifyLocations_word name.word)]

/-- A tree is passed over when enough brackets are open. -/
lemma lengthAfter?_write (free : BracketFree q) (t : TypeTree) {depth : Nat}
    (enough : t.unopened ≤ depth) (rest : List Char) :
    lengthAfter? depth (t.write (.canonical q) ++ rest) =
      lengthAfter? (depth - t.unopened) rest := by
  induction t generalizing depth rest with
  | elementary id => exact lengthAfter?_word depth (unifyLocations_word id.word) rest
  | declared kind name node pointer =>
    simp only [TypeTree.write]
    cases hn : name.isHidden with
    | false =>
      have none : (TypeTree.declared kind name node pointer).unopened = 0 := by
        simp [TypeTree.unopened, TypeTree.names, hn]
      rw [lengthAfter?_shown free kind hn, none, Nat.sub_zero]
    | true =>
      have one : (TypeTree.declared kind name node pointer).unopened = 1 := by
        simp [TypeTree.unopened, TypeTree.names, hn]
      obtain ⟨outer, rfl⟩ : ∃ outer, depth = outer + 1 := ⟨depth - 1, by omega⟩
      rw [lengthAfter?_hidden kind hn, lengthAfter?_close,
        lengthAfter?_word outer (isWordChar_digits node),
        lengthAfter?_word outer (kind.locationText_word false), one, Nat.add_sub_cancel]
  | mapping key value ihk ihv =>
    have parts := TypeTree.unopened_mapping key value
    simp only [TypeTree.write, Spelling.canonical_opening, Spelling.canonical_comma,
      Spelling.canonical_closing, List.append_assoc, List.cons_append, List.nil_append]
    rw [lengthAfter?_word depth mappingWord_word, lengthAfter?_open, ihk (by omega),
      lengthAfter?_comma, ihv (by omega)]
    have still : depth + 1 - key.unopened - value.unopened =
        depth - (TypeTree.mapping key value).unopened + 1 := by omega
    rw [still, lengthAfter?_close]
  | array element length pointer ih =>
    have parts := TypeTree.unopened_array element length pointer
    simp only [TypeTree.write, Spelling.canonical_opening, Spelling.canonical_closing,
      Spelling.canonical_location, List.append_assoc, List.cons_append, List.nil_append]
    rw [lengthAfter?_word depth arrayWord_word, lengthAfter?_open, ih (by omega)]
    have still : depth + 1 - element.unopened =
        depth - (TypeTree.array element length pointer).unopened + 1 := by omega
    rw [still, lengthAfter?_close, lengthAfter?_word _ length.text_word,
      lengthAfter?_word _ (locationText_word false)]

/-- A tree in which the count comes to an end. -/
lemma lengthAfter?_inside (free : BracketFree q) (t : TypeTree) {depth : Nat}
    (short : depth < t.unopened) {rest : List Char} (h : EndsType rest) :
    lengthAfter? depth (t.write (.canonical q) ++ rest) = t.lengthBehind depth := by
  induction t generalizing depth rest with
  | elementary id => simp [TypeTree.unopened, TypeTree.names] at short
  | declared kind name node pointer =>
    cases hn : name.isHidden with
    | false => simp [TypeTree.unopened, TypeTree.names, hn] at short
    | true =>
      have last : depth = 0 := by simpa [TypeTree.unopened, TypeTree.names, hn] using short
      subst last
      simp only [TypeTree.write]
      rw [lengthAfter?_hidden kind hn, lengthAfter?_last, TypeTree.lengthBehind]
      exact lengthIn?_number node (location_behind kind h).2
  | mapping key value ihk ihv =>
    have parts := TypeTree.unopened_mapping key value
    simp only [TypeTree.write, Spelling.canonical_opening, Spelling.canonical_comma,
      Spelling.canonical_closing, List.append_assoc, List.cons_append, List.nil_append]
    rw [lengthAfter?_word depth mappingWord_word, lengthAfter?_open, TypeTree.lengthBehind]
    by_cases inKey : depth + 1 < key.unopened
    · rw [if_pos inKey, ihk inKey (endsType_comma _)]
    · rw [if_neg inKey, lengthAfter?_write free key (by omega), lengthAfter?_comma]
      by_cases inValue : depth + 1 - key.unopened < value.unopened
      · rw [if_pos inValue, ihv inValue (endsType_closing _)]
      · have last : depth + 1 - key.unopened - value.unopened = 0 := by omega
        rw [if_neg inValue, lengthAfter?_write free value (by omega), last, lengthAfter?_last]
        exact lengthIn?_none h
  | array element length pointer ih =>
    have parts := TypeTree.unopened_array element length pointer
    simp only [TypeTree.write, Spelling.canonical_opening, Spelling.canonical_closing,
      Spelling.canonical_location, List.append_assoc, List.cons_append, List.nil_append]
    rw [lengthAfter?_word depth arrayWord_word, lengthAfter?_open, TypeTree.lengthBehind]
    by_cases inElement : depth + 1 < element.unopened
    · rw [if_pos inElement, ih inElement (endsType_closing _)]
    · have last : depth + 1 - element.unopened = 0 := by omega
      rw [if_neg inElement, lengthAfter?_write free element (by omega), last, lengthAfter?_last]
      exact lengthIn?_text length (by rintro c hc; cases hc; decide)

lemma arrayHead_eq : arrayHead = arrayWord ++ ['('] := by decide

/-- The length read from the id of an array, whichever names are chosen in it. -/
lemma arrayLength?_canonicalWith (free : BracketFree q) (element : TypeTree)
    (length : ArrayLength) (pointer : Bool) (keys : element.KeysPlain) :
    arrayLength? (canonicalWith q (TypeTree.array element length pointer).encode) =
      if element.unopened = 0 then length.inWord? else element.lengthBehind 0 := by
  have text : (canonicalWith q (TypeTree.array element length pointer).encode).toList =
      arrayHead ++ (element.write (.canonical q) ++
        ')' :: (length.text ++ (locationText false))) := by
    rw [canonicalWith_encode q (.array element length pointer) keys, String.toList_ofList]
    simp [TypeTree.write, arrayHead_eq]
  have begins : arrayHead.isPrefixOf (arrayHead ++ (element.write (.canonical q) ++
      ')' :: (length.text ++ (locationText false)))) :=
    List.isPrefixOf_iff_prefix.2 (List.prefix_append _ _)
  have counted : arrayLength? (canonicalWith q (TypeTree.array element length pointer).encode) =
      lengthAfter? 0 (element.write (.canonical q) ++
        ')' :: (length.text ++ locationText false)) := by
    simp only [arrayLength?, text]
    rw [if_pos begins, List.drop_left]
    rfl
  rw [counted]
  by_cases none : element.unopened = 0
  · rw [if_pos none, lengthAfter?_write free element (Nat.le_of_eq none), none,
      lengthAfter?_last]
    exact lengthIn?_text length (by rintro c hc; cases hc; decide)
  · rw [if_neg none, lengthAfter?_inside free element (by omega) (endsType_closing _)]

end Counting

/-! ## When the length read is the declared one -/

/--
The length of an array is read from its id exactly as declared unless the name of
a declared type in its element begins with an underscore. Then it is read behind
an inner bracket, where a node id may stand.
-/
theorem arrayLength?_canonical_iff (element : TypeTree) (length : ArrayLength) (pointer : Bool)
    (keys : element.KeysPlain) (fits : length.Fits) :
    arrayLength? (canonical (TypeTree.array element length pointer).encode) = some length ↔
      (∀ name ∈ element.names, name.isHidden = false) ∨
        element.lengthBehind 0 = some length := by
  have read := arrayLength?_canonicalWith bracketFree_none element length pointer keys
  rw [fits.inWord?] at read
  rw [canonical, read]
  by_cases none : element.unopened = 0
  · have decoded := element.unopened_eq_zero.1 none
    rw [if_pos none]
    constructor
    · intro _
      exact Or.inl decoded
    · intro _
      rfl
  · have hidden : ¬ ∀ name ∈ element.names, name.isHidden = false := fun h =>
      none (element.unopened_eq_zero.2 h)
    rw [if_neg none]
    constructor
    · intro behind
      exact Or.inr behind
    · rintro (shown | behind)
      · exact absurd shown hidden
      · exact behind

/-- A struct type, declared at node 12. -/
def structNamed (name : DeclaredName) : TypeTree := .declared .struct name 12 false

def nameS : DeclaredName := ⟨['S'], by decide, word_of_all (by decide), by simp⟩

def nameUnderscoreS : DeclaredName := ⟨['_', 'S'], by decide, word_of_all (by decide), by simp⟩

theorem arrayLength?_three_structs :
    (TypeTree.array (structNamed nameS) (.fixed 3) false).encode =
        "t_array$_t_struct$_S_$12_storage_$3_storage" ∧
      arrayLength? (canonical (TypeTree.array (structNamed nameS) (.fixed 3) false).encode) =
        some (.fixed 3) := by
  refine ⟨by decide +kernel, ?_⟩
  exact (arrayLength?_canonical_iff (structNamed nameS) (.fixed 3) false trivial (by decide)).2
    (Or.inl (by decide))

theorem arrayLength?_three_underscored :
    (TypeTree.array (structNamed nameUnderscoreS) (.fixed 3) false).encode =
        "t_array$_t_struct$__S_$12_storage_$3_storage" ∧
      arrayLength? (canonical (TypeTree.array (structNamed nameUnderscoreS) (.fixed 3)
        false).encode) = some (.fixed 12) := by
  decide +kernel

end TypeId

end UpgradeSafety
