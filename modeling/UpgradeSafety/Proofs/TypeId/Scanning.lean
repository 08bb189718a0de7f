import UpgradeSafety.Proofs.TypeId.LookAhead

/-!
# Decoding as a scan with a look-ahead

The flags that decoding works with are those of the tails of the text, so a
decoder may be read as one scan that looks at the text still in front of it.
Nothing is said here about where encoded texts come from.
-/

namespace UpgradeSafety.TypeId

/-- Whether a token may end where the text begins. -/
def continues (text : List Char) : Bool := (continuations text).headD false

/-- The token that a decoder takes at the front of a text. -/
def nextToken? (text : List Char) : Option Token :=
  tokens.find? fun t => t.letters.isPrefixOf text && continues (text.drop t.letters.length)

lemma drop_letters {n : Nat} (h : 0 < n) (c : Char) (rest : List Char) :
    (c :: rest).drop n = rest.drop (n - 1) := by
  cases n with
  | zero => omega
  | succ n => rfl

lemma mayContinue_characters (text : List Char) : characters.mayContinue text = continues text := by
  rw [Encoding.mayContinue, flags_characters, continues]

/-- The token is the one that the encoding has at the front of the text. -/
lemma tokenAt?_characters (text : List Char) :
    characters.tokenAt? text (characters.flags text) =
      (nextToken? text).map fun t => ⟨t.letters, t.mark⟩ := by
  rw [Encoding.tokenAt?_flags, nextToken?]
  simp only [← mayContinue_characters]
  exact List.find?_map

lemma continues_cons (c : Char) (rest : List Char) :
    continues (c :: rest) = (!isTokenChar c || (nextToken? (c :: rest)).isSome) := by
  rw [← mayContinue_characters, Encoding.mayContinue_cons, ← List.isSome_find?,
    ← Encoding.tokenAt?_flags, tokenAt?_characters, Option.isSome_map]
  rfl

/-- One step of a decoder. -/
lemma decodeChars_cons (c : Char) (rest : List Char) :
    decodeChars (c :: rest) =
      match nextToken? (c :: rest) with
      | some t => t.mark :: decodeChars ((c :: rest).drop t.letters.length)
      | none => c :: decodeChars rest := by
  have found := tokenAt?_characters (c :: rest)
  cases next : nextToken? (c :: rest) with
  | none =>
    rw [next] at found
    have copied := Encoding.decode_of_none (Encoding.tokenAt?_eq_none_iff.1 found)
    rwa [decode_characters, decode_characters] at copied
  | some t =>
    rw [next] at found
    have takes := Encoding.tokenAt?_eq_some_iff.1 found
    obtain ⟨behind, parts, _⟩ := takes.1
    rw [parts] at takes
    have decoded := Encoding.decode_of_takes takes
    rw [decode_characters, decode_characters] at decoded
    have behind_eq : (c :: rest).drop t.letters.length = behind := parts ▸ List.drop_left
    simp only [behind_eq]
    rw [parts, decoded]

@[simp] lemma decodeChars_nil : decodeChars [] = [] := rfl

@[simp] lemma continues_nil : continues [] = true := rfl

/-! ## Steps on texts of a known form -/

lemma continues_of_plain {c : Char} (rest : List Char) (h : isTokenChar c = false) :
    continues (c :: rest) = true := by
  simp [continues_cons, h]

lemma decodeChars_plain {c : Char} (rest : List Char) (h : isTokenChar c = false) :
    decodeChars (c :: rest) = c :: decodeChars rest := by
  have hne : c ≠ '$' ∧ c ≠ '_' := by
    constructor <;> rintro rfl <;> simp [isTokenChar] at h
  have none : nextToken? (c :: rest) = none := by
    simp [nextToken?, tokens, List.isPrefixOf, hne.1.symm, hne.2.symm]
  rw [decodeChars_cons, none]

lemma nextToken?_underscore {rest : List Char} (h : rest.head? ≠ some '$') :
    nextToken? ('_' :: rest) = none := by
  cases rest with
  | nil => simp [nextToken?, tokens]
  | cons c rest =>
    have hc : '$' ≠ c := by rintro rfl; exact h rfl
    simp [nextToken?, tokens, hc]

lemma decodeChars_underscore {rest : List Char} (h : rest.head? ≠ some '$') :
    decodeChars ('_' :: rest) = '_' :: decodeChars rest := by
  rw [decodeChars_cons, nextToken?_underscore h]

lemma continues_underscore {rest : List Char} (h : rest.head? ≠ some '$') :
    continues ('_' :: rest) = false := by
  rw [continues_cons, nextToken?_underscore h]
  rfl

lemma decodeChars_open {rest : List Char} (h : continues rest = true) :
    decodeChars ('$' :: '_' :: rest) = '(' :: decodeChars rest := by
  have hn : nextToken? ('$' :: '_' :: rest) = some ⟨['$', '_'], '('⟩ := by
    simp [nextToken?, tokens, h]
  rw [decodeChars_cons, hn]
  rfl

lemma decodeChars_dollar {rest : List Char} (h : continues rest = false) :
    decodeChars ('$' :: '_' :: rest) = '$' :: decodeChars ('_' :: rest) := by
  have hn : nextToken? ('$' :: '_' :: rest) = none := by
    simp [nextToken?, tokens, h]
  rw [decodeChars_cons, hn]

lemma decodeChars_comma {rest : List Char} (h : continues rest = true) :
    decodeChars ('_' :: '$' :: '_' :: rest) = ',' :: decodeChars rest := by
  have hn : nextToken? ('_' :: '$' :: '_' :: rest) = some ⟨['_', '$', '_'], ','⟩ := by
    simp [nextToken?, tokens, h]
  rw [decodeChars_cons, hn]
  rfl

/--
A text that may follow a closing bracket which is not followed by a comma: it
ends, or goes on with a letter, behind any number of further closing brackets.
-/
inductive FollowsClosing : List Char → Prop where
  | nil : FollowsClosing []
  | plain {c : Char} (rest : List Char) (h : isTokenChar c = false) : FollowsClosing (c :: rest)
  | closing {rest : List Char} (h : FollowsClosing rest) : FollowsClosing ('_' :: '$' :: rest)

namespace FollowsClosing

lemma continues_dollar {rest : List Char} (h : FollowsClosing rest) :
    continues ('$' :: rest) = false := by
  induction h with
  | nil => rfl
  | @plain c rest h =>
    have hc : c ≠ '_' := by rintro rfl; simp [isTokenChar] at h
    simp [continues_cons, isTokenChar, nextToken?, tokens, hc.symm]
  | @closing rest _ ih =>
    have stuck : nextToken? ('$' :: '_' :: '$' :: rest) = none := by
      simp [nextToken?, tokens, ih]
    rw [continues_cons, stuck]
    rfl

lemma nextToken?_closing {rest : List Char} (h : FollowsClosing rest)
    (goes : continues rest = true) : nextToken? ('_' :: '$' :: rest) = some ⟨['_', '$'], ')'⟩ := by
  cases h with
  | nil => simp [nextToken?, tokens]
  | @plain c rest h =>
    have hc : c ≠ '_' := by rintro rfl; simp [isTokenChar] at h
    simp [nextToken?, tokens, hc.symm, goes]
  | @closing rest h =>
    simp [nextToken?, tokens, h.continues_dollar, goes]

lemma continues {rest : List Char} (h : FollowsClosing rest) : continues rest = true := by
  induction h with
  | nil => rfl
  | plain rest h => exact continues_of_plain rest h
  | closing h ih => simp [continues_cons, h.nextToken?_closing ih]

lemma decodeChars_close {rest : List Char} (h : FollowsClosing rest) :
    decodeChars ('_' :: '$' :: rest) = ')' :: decodeChars rest := by
  rw [decodeChars_cons, h.nextToken?_closing h.continues]
  rfl

end FollowsClosing

end UpgradeSafety.TypeId
