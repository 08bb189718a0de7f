/-!
# The bracket encoding of type identifiers

The compiler writes the brackets and commas of a type as letters: an opening
bracket as "$_", a comma as "_$_" and a closing bracket as "_$". Since names may
hold underscores as well, a token counts only when it is followed by a run of
further tokens and then by the end or by a character other than "_" and "$".
Decoding settles that look-ahead once for every position, from the back.
-/

namespace UpgradeSafety.TypeId

/-- A structural character and the letters it is written as. -/
structure Token where
  letters : List Char
  mark : Char
  deriving DecidableEq, Repr

/-- The tokens in the order in which they are tried. -/
def tokens : List Token := [⟨['$', '_'], '('⟩, ⟨['_', '$', '_'], ','⟩, ⟨['_', '$'], ')'⟩]

/-- Whether a character may belong to a token. -/
def isTokenChar (c : Char) : Bool := c = '_' || c = '$'

/--
For every tail of a text from the longest to the empty one, whether a token that
ends where the tail begins is followed by what it needs.
-/
def continuations : List Char → List Bool
  | [] => [true]
  | c :: rest =>
    let after := continuations rest
    let continues := tokens.any fun t =>
      t.letters.isPrefixOf (c :: rest) && after.getD (t.letters.length - 1) false
    (!isTokenChar c || continues) :: after

/-- The token to decode at the front of a text, given the continuations of its tails. -/
def tokenAt? (text : List Char) (flags : List Bool) : Option Token :=
  tokens.find? fun t => t.letters.isPrefixOf text && flags.getD t.letters.length false

/-- Decodes a text whose first `skip` characters belong to a token already decoded. -/
def decodeFrom : Nat → List Char → List Bool → List Char
  | _, [], _ => []
  | skip + 1, _ :: rest, flags => decodeFrom skip rest flags.tail
  | 0, c :: rest, flags =>
    match tokenAt? (c :: rest) flags with
    | some t => t.mark :: decodeFrom (t.letters.length - 1) rest flags.tail
    | none => c :: decodeFrom 0 rest flags.tail

def decodeChars (text : List Char) : List Char := decodeFrom 0 text (continuations text)

/-- Restores the brackets and commas of an encoded identifier. -/
def decode (raw : String) : String := String.ofList (decodeChars raw.toList)

end UpgradeSafety.TypeId
