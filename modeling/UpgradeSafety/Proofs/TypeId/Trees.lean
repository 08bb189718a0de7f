import Mathlib.Tactic.Simps.Basic
import UpgradeSafety.Compilation.Declarations
import UpgradeSafety.Proofs.TypeId.Scanning
import UpgradeSafety.TypeId.ArrayLength

/-!
# Type trees and their encodings

The types that a compiler writes identifiers for, as trees. A tree is written in
several spellings: as the compiler encodes it, and as decoding leaves it. The
opening bracket in front of a name that starts with an underscore is the one
mark that decoding does not restore.
-/

namespace UpgradeSafety

/-- The characters of the names that are considered here. -/
def isWordChar (c : Char) : Bool := c.isAlphanum || c = '_'

/-- The name of a declared type: letters, digits and underscores, no digit in front. -/
structure DeclaredName where
  letters : List Char
  nonempty : letters ≠ []
  word : ∀ c ∈ letters, isWordChar c = true
  undigited : ∀ c ∈ letters.head?, c.isDigit = false

/-- The id of a type that is built into the language, such as `t_uint256`. -/
structure ElementaryId where
  letters : List Char
  word : ∀ c ∈ letters, isWordChar c = true
  headed : ∃ rest, letters = 't' :: '_' :: rest

inductive TypeTree where
  | elementary (id : ElementaryId)
  /-- Only a struct has a location, and so may be met through a pointer. -/
  | declared (kind : DeclarationKind) (name : DeclaredName) (node : Nat) (pointer : Bool)
  | mapping (key value : TypeTree)
  | array (element : TypeTree) (length : ArrayLength) (pointer : Bool)

/-- The letters that a declared type begins with. -/
def DeclarationKind.head : DeclarationKind → List Char
  | .contract => "t_contract".toList
  | .struct => "t_struct".toList
  | .enum => "t_enum".toList
  | .valueType => "t_userDefinedValueType".toList

def mappingWord : List Char := "t_mapping".toList

def arrayWord : List Char := "t_array".toList

/-- The letters that tell where a value is kept. -/
def locationText (pointer : Bool) : List Char :=
  if pointer then "_storage_ptr".toList else "_storage".toList

/-- The location of a declared type, which only a struct has. -/
def DeclarationKind.locationText (kind : DeclarationKind) (pointer : Bool) : List Char :=
  if kind = .struct then UpgradeSafety.locationText pointer else []

def ArrayLength.text : ArrayLength → List Char
  | .fixed n => Numeral.digits n
  | .dynamic => "dyn".toList

namespace DeclaredName

/-- Whether the bracket in front of the name stays undecoded. -/
def isHidden (name : DeclaredName) : Bool := name.letters.head? = some '_'

/-- How decoding leaves the bracket in front of the name. -/
def opening (name : DeclaredName) : List Char := if name.isHidden then ['$', '_'] else ['(']

end DeclaredName

/-- How the parts of a type tree are written. -/
structure Spelling where
  opening : List Char
  comma : List Char
  closing : List Char
  elementary : List Char → List Char
  declared : DeclarationKind → DeclaredName → Nat → Bool → List Char
  location : Bool → List Char

namespace Spelling

/-- As the compiler writes it. -/
@[simps]
def encoded : Spelling where
  opening := ['$', '_']
  comma := ['_', '$', '_']
  closing := ['_', '$']
  elementary letters := letters
  declared kind name node pointer :=
    kind.head ++ '$' :: '_' :: name.letters ++ '_' :: '$' :: Numeral.digits node ++
      kind.locationText pointer
  location := locationText

/-- As decoding leaves it. -/
@[simps]
def decoded : Spelling where
  opening := ['(']
  comma := [',']
  closing := [')']
  elementary letters := letters
  declared kind name node pointer :=
    kind.head ++ name.opening ++ name.letters ++ ')' :: Numeral.digits node ++
      kind.locationText pointer
  location := locationText

end Spelling

namespace TypeTree

def write (s : Spelling) : TypeTree → List Char
  | elementary id => s.elementary id.letters
  | declared kind name node pointer => s.declared kind name node pointer
  | mapping key value =>
    mappingWord ++ s.opening ++ key.write s ++ s.comma ++ value.write s ++ s.closing
  | array element length pointer =>
    arrayWord ++ s.opening ++ element.write s ++ s.closing ++ length.text ++
      s.location pointer

/-- The raw identifier of the type. -/
def encode (t : TypeTree) : String := String.ofList (t.write .encoded)

def isMapping : TypeTree → Bool
  | mapping _ _ => true
  | _ => false

/-- No mapping has a mapping as its key. -/
def KeysPlain : TypeTree → Prop
  | elementary _ => True
  | declared _ _ _ _ => True
  | mapping key value => key.isMapping = false ∧ key.KeysPlain ∧ value.KeysPlain
  | array element _ _ => element.KeysPlain

end TypeTree

/-! ## Words -/

lemma isWordChar_of_isDigit {c : Char} (h : c.isDigit = true) : isWordChar c = true := by
  simp [isWordChar, Char.isAlphanum, h]

lemma digits_word (n : Nat) : ∀ c ∈ Numeral.digits n, c.isDigit = true := fun _ hc =>
  Nat.isDigit_of_mem_toDigits (by decide) (by decide) hc

lemma isWordChar_digits (n : Nat) : ∀ c ∈ Numeral.digits n, isWordChar c = true := by
  intro c hc
  exact isWordChar_of_isDigit (digits_word n c hc)

lemma takeWhile_digits (n : Nat) {rest : List Char} (h : ∀ c ∈ rest.head?, c.isDigit = false) :
    (Numeral.digits n ++ rest).takeWhile Char.isDigit = Numeral.digits n := by
  rw [List.takeWhile_append_of_pos (digits_word n)]
  cases rest with
  | nil => simp
  | cons c rest => simp [h c rfl]

lemma digits_ne_nil (n : Nat) : Numeral.digits n ≠ [] := Nat.toDigits_ne_nil

lemma ofDigits?_digits_eq (bound n : Nat) :
    Numeral.ofDigits? bound (Numeral.digits n) = if n < bound then some n else none := by
  have value : Nat.ofDigitChars 10 (Numeral.digits n) 0 = n :=
    Nat.ofDigitChars_toDigits (by decide) (by decide)
  have all : (Numeral.digits n).all Char.isDigit = true := List.all_eq_true.2 (digits_word n)
  simp only [Numeral.ofDigits?, value, all, digits_ne_nil, ne_eq, not_false_eq_true, true_and]

/-- A closed word is tested letter by letter, not over all characters. -/
lemma word_of_all {w : List Char} (h : w.all isWordChar = true) : ∀ c ∈ w, isWordChar c = true :=
  List.all_eq_true.1 h

lemma undigited_of_all {letters : List Char} (h : letters.head?.all (!·.isDigit) = true) :
    ∀ c ∈ letters.head?, c.isDigit = false := by
  intro c first
  rw [Option.mem_def] at first
  rw [first] at h
  simpa using h

lemma word_append {v w : List Char} (hv : ∀ c ∈ v, isWordChar c = true)
    (hw : ∀ c ∈ w, isWordChar c = true) : ∀ c ∈ v ++ w, isWordChar c = true := by
  intro c hc
  rcases List.mem_append.1 hc with hc | hc
  · exact hv c hc
  · exact hw c hc

lemma mappingWord_word : ∀ c ∈ mappingWord, isWordChar c = true := word_of_all (by decide)

lemma arrayWord_word : ∀ c ∈ arrayWord, isWordChar c = true := word_of_all (by decide)

lemma locationText_word (pointer : Bool) : ∀ c ∈ locationText pointer, isWordChar c = true := by
  cases pointer <;> exact word_of_all (by decide)

lemma DeclarationKind.locationText_word (kind : DeclarationKind) (pointer : Bool) :
    ∀ c ∈ kind.locationText pointer, isWordChar c = true := by
  rw [DeclarationKind.locationText]
  split
  · exact UpgradeSafety.locationText_word pointer
  · simp

lemma DeclarationKind.head_injective {kind other : DeclarationKind} (h : kind.head = other.head) :
    kind = other := by
  cases kind <;> cases other <;> first | rfl | exact absurd h (by decide)

lemma DeclarationKind.head_word (kind : DeclarationKind) :
    ∀ c ∈ kind.head, isWordChar c = true := by
  cases kind <;> exact word_of_all (by decide)

lemma ArrayLength.text_word (length : ArrayLength) : ∀ c ∈ length.text, isWordChar c = true := by
  cases length with
  | fixed n => exact isWordChar_digits n
  | dynamic => exact word_of_all (by decide)

lemma ArrayLength.text_cons (length : ArrayLength) :
    ∃ c rest, length.text = c :: rest ∧ c ≠ '_' ∧ isWordChar c = true := by
  cases length with
  | fixed n =>
    obtain ⟨c, rest, hd⟩ := List.exists_cons_of_ne_nil (digits_ne_nil n)
    have hc : c.isDigit = true := digits_word n c (by rw [hd]; exact List.mem_cons_self)
    refine ⟨c, rest, hd, ?_, isWordChar_of_isDigit hc⟩
    rintro rfl
    simp at hc
  | dynamic => exact ⟨'d', ['y', 'n'], rfl, by decide, by decide⟩

/-! ## Decoding an encoded tree -/

namespace TypeId

lemma isTokenChar_of_word {c : Char} (h : isWordChar c = true) (hc : c ≠ '_') :
    isTokenChar c = false := by
  have hd : c ≠ '$' := by rintro rfl; simp [isWordChar] at h
  simp [isTokenChar, hc, hd]

lemma head?_word_append {w : List Char} (word : ∀ c ∈ w, isWordChar c = true) {rest : List Char}
    (h : rest.head? ≠ some '$') : (w ++ rest).head? ≠ some '$' := by
  cases w with
  | nil => exact h
  | cons c w =>
    rintro hc
    cases hc
    simpa [isWordChar] using word '$' List.mem_cons_self

/-- A word is copied, unless its last underscore begins a token with what follows. -/
lemma decodeChars_word {w : List Char} (word : ∀ c ∈ w, isWordChar c = true) (rest : List Char)
    (h : rest.head? ≠ some '$' ∨ w.getLast? ≠ some '_') :
    decodeChars (w ++ rest) = w ++ decodeChars rest := by
  induction w with
  | nil => rfl
  | cons c w ih =>
    have hw : ∀ d ∈ w, isWordChar d = true := fun d hd => word d (List.mem_cons_of_mem c hd)
    have tail : rest.head? ≠ some '$' ∨ w.getLast? ≠ some '_' := by
      cases w with
      | nil => exact Or.inr (by simp)
      | cons d w => simpa using h
    by_cases hc : c = '_'
    · subst hc
      have next : (w ++ rest).head? ≠ some '$' := by
        cases w with
        | nil => exact h.resolve_right (by simp)
        | cons d w =>
          rintro hd
          cases hd
          simpa [isWordChar] using hw '$' List.mem_cons_self
      rw [List.cons_append, decodeChars_underscore next, ih hw tail]
      rfl
    · have plain := isTokenChar_of_word (word c List.mem_cons_self) hc
      rw [List.cons_append, decodeChars_plain _ plain, ih hw tail]
      rfl

lemma followsClosing_length (length : ArrayLength) (rest : List Char) :
    FollowsClosing (length.text ++ rest) := by
  obtain ⟨c, tail, hl, hne, hc⟩ := length.text_cons
  rw [hl]
  exact .plain _ (isTokenChar_of_word hc hne)

lemma followsClosing_digits (n : Nat) (rest : List Char) :
    FollowsClosing (Numeral.digits n ++ rest) := followsClosing_length (.fixed n) rest

/-- Whether the bracket in front of a name is decoded hangs on the first letter alone. -/
lemma continues_name (name : DeclaredName) {rest : List Char} (h : rest.head? ≠ some '$') :
    continues (name.letters ++ rest) = !name.isHidden := by
  obtain ⟨c, w, hw⟩ := List.exists_cons_of_ne_nil name.nonempty
  have word := name.word
  rw [hw] at word
  rw [DeclaredName.isHidden, hw]
  by_cases hc : c = '_'
  · subst hc
    have next : (w ++ rest).head? ≠ some '$' :=
      head?_word_append (fun d hd => word d (List.mem_cons_of_mem _ hd)) h
    simpa using continues_underscore next
  · have plain := isTokenChar_of_word (word c List.mem_cons_self) hc
    simpa [hc] using continues_of_plain (w ++ rest) plain

lemma decodeChars_name (name : DeclaredName) (rest : List Char) (h : rest.head? ≠ some '$') :
    decodeChars ('$' :: '_' :: name.letters ++ rest) =
      name.opening ++ name.letters ++ decodeChars rest := by
  have goes := continues_name name h
  have word := decodeChars_word name.word rest (Or.inl h)
  cases hn : name.isHidden with
  | false =>
    rw [hn] at goes
    rw [List.cons_append, List.cons_append, decodeChars_open goes, word]
    simp [DeclaredName.opening, hn]
  | true =>
    rw [hn] at goes
    have next : (name.letters ++ rest).head? ≠ some '$' := head?_word_append name.word h
    rw [List.cons_append, List.cons_append, decodeChars_dollar goes,
      decodeChars_underscore next, word]
    simp [DeclaredName.opening, hn]

lemma decodeChars_declared (kind : DeclarationKind) (name : DeclaredName) (node : Nat)
    (pointer : Bool) {rest : List Char} (h : rest.head? ≠ some '$') :
    decodeChars (Spelling.encoded.declared kind name node pointer ++ rest) =
      Spelling.decoded.declared kind name node pointer ++ decodeChars rest := by
  have head := decodeChars_word kind.head_word
    ('$' :: '_' :: name.letters ++ '_' :: '$' :: (Numeral.digits node ++
      (kind.locationText pointer ++ rest))) (Or.inr (by cases kind <;> decide))
  have named := decodeChars_name name
    ('_' :: '$' :: (Numeral.digits node ++ (kind.locationText pointer ++ rest))) (by simp)
  have closed := (followsClosing_digits node (kind.locationText pointer ++ rest)).decodeChars_close
  have tail : decodeChars (Numeral.digits node ++ kind.locationText pointer ++ rest) =
      Numeral.digits node ++ kind.locationText pointer ++ decodeChars rest :=
    decodeChars_word (word_append (isWordChar_digits node) (kind.locationText_word pointer)) rest
      (Or.inl h)
  simp only [List.append_assoc, List.cons_append] at head named closed tail
  simp only [Spelling.encoded_declared, Spelling.decoded_declared, List.append_assoc,
    List.cons_append]
  rw [head, named, closed, tail]

lemma write_encoded_cons (t : TypeTree) : ∃ rest, t.write .encoded = 't' :: rest := by
  cases t with
  | elementary id =>
    obtain ⟨rest, h⟩ := id.headed
    exact ⟨'_' :: rest, h⟩
  | declared kind name node pointer => cases kind <;> exact ⟨_, rfl⟩
  | mapping key value => exact ⟨_, rfl⟩
  | array element length pointer => exact ⟨_, rfl⟩

lemma continues_write (t : TypeTree) (rest : List Char) :
    continues (t.write .encoded ++ rest) = true := by
  obtain ⟨w, h⟩ := write_encoded_cons t
  rw [h]
  exact continues_of_plain _ (by decide)

/--
Decoding gives a tree its brackets back, also where more follows it. What
follows a mapping may not be a comma, whence keys are no mappings.
-/
lemma decodeChars_write (t : TypeTree) (keys : t.KeysPlain) (rest : List Char)
    (h : rest.head? ≠ some '$') (hm : t.isMapping = true → FollowsClosing rest) :
    decodeChars (t.write .encoded ++ rest) = t.write .decoded ++ decodeChars rest := by
  induction t generalizing rest with
  | elementary id =>
    simp only [TypeTree.write, Spelling.encoded_elementary, Spelling.decoded_elementary]
    exact decodeChars_word id.word rest (Or.inl h)
  | declared kind name node pointer =>
    simp only [TypeTree.write]
    exact decodeChars_declared kind name node pointer h
  | mapping key value ihk ihv =>
    obtain ⟨notMapping, keysK, keysV⟩ := keys
    have hr := hm rfl
    have close : FollowsClosing ('_' :: '$' :: rest) := .closing hr
    have head := decodeChars_word mappingWord_word
      ('$' :: '_' :: (key.write .encoded ++ ('_' :: '$' :: '_' ::
        (value.write .encoded ++ '_' :: '$' :: rest)))) (Or.inr (by decide))
    simp only [TypeTree.write, Spelling.encoded_opening, Spelling.encoded_comma,
      Spelling.encoded_closing, Spelling.decoded_opening, Spelling.decoded_comma,
      Spelling.decoded_closing, List.append_assoc, List.cons_append, List.nil_append]
    rw [head, decodeChars_open (continues_write key _),
      ihk keysK _ (by simp) (fun hk => by rw [hk] at notMapping; cases notMapping),
      decodeChars_comma (continues_write value _), ihv keysV _ (by simp) (fun _ => close),
      hr.decodeChars_close]
  | array element length pointer ih =>
    have close := followsClosing_length length (locationText pointer ++ rest)
    have head := decodeChars_word arrayWord_word
      ('$' :: '_' :: (element.write .encoded ++ ('_' :: '$' ::
        (length.text ++ (locationText pointer ++ rest))))) (Or.inr (by decide))
    have tail : decodeChars (length.text ++ locationText pointer ++ rest) =
        length.text ++ locationText pointer ++ decodeChars rest :=
      decodeChars_word (word_append length.text_word (locationText_word pointer)) rest (Or.inl h)
    simp only [List.append_assoc] at tail
    simp only [TypeTree.write, Spelling.encoded_opening, Spelling.encoded_closing,
      Spelling.encoded_location, Spelling.decoded_opening, Spelling.decoded_closing,
      Spelling.decoded_location, List.append_assoc, List.cons_append, List.nil_append]
    rw [head, decodeChars_open (continues_write element _),
      ih keys _ (by simp) (fun _ => .closing close), close.decodeChars_close, tail]

end TypeId

end UpgradeSafety
