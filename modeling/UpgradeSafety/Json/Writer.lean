import UpgradeSafety.Json.Basic

/-!
# Writing JSON text

One writer with two styles. A string escapes the quote, the backslash and the
characters below U+0020, five of which have a short escape; everything else
stands as it is. What cannot be read is written as half of a surrogate pair,
which cannot be read either.
-/

namespace UpgradeSafety.Json

/-- What is written between the tokens of a value. -/
structure Style where
  /-- Written before an item and before a closing bracket, at a depth of nesting. -/
  lineBreak : Nat → List Char
  afterColon : List Char

/-- Everything on one line without blanks. -/
def compact : Style := ⟨fun _ => [], []⟩

/-- Every item on its own line, indented by two spaces for each level. -/
def pretty : Style := ⟨fun depth => '\n' :: List.replicate (2 * depth) ' ', [' ']⟩

def hexDigit (n : Nat) : Char := if n < 10 then Char.ofNat (48 + n) else Char.ofNat (87 + n)

def escape (c : Char) : List Char :=
  if c = '"' then ['\\', '"']
  else if c = '\\' then ['\\', '\\']
  else if c = '\x08' then ['\\', 'b']
  else if c = '\x0c' then ['\\', 'f']
  else if c = '\n' then ['\\', 'n']
  else if c = '\r' then ['\\', 'r']
  else if c = '\t' then ['\\', 't']
  else if c.toNat < 0x20 then
    ['\\', 'u', '0', '0', hexDigit (c.toNat / 16), hexDigit (c.toNat % 16)]
  else [c]

def quoted (text : String) : List Char := '"' :: (text.toList.flatMap escape ++ ['"'])

def integerChars : Int → List Char
  | .ofNat n => Nat.toDigits 10 n
  | .negSucc n => '-' :: Nat.toDigits 10 (n + 1)

def decimalChars (d : Decimal) : List Char :=
  (if d.negative then ['-'] else []) ++ Nat.toDigits 10 d.significand ++
    'e' :: integerChars d.exponent

mutual

/-- The characters of a value that stands `depth` levels deep. -/
def chars (style : Style) (depth : Nat) : Json → List Char
  | .unreadable => "\"\\ud800\"".toList
  | .null => "null".toList
  | .bool true => "true".toList
  | .bool false => "false".toList
  | .integer n => integerChars n
  | .decimal d => decimalChars d
  | .string text => quoted text
  | .array [] => ['[', ']']
  | .array (item :: rest) =>
    '[' :: (style.lineBreak (depth + 1) ++ chars style (depth + 1) item ++
      (itemChars style (depth + 1) rest ++ (style.lineBreak depth ++ [']'])))
  | .object [] => ['\x7b', '\x7d']
  | .object ((key, value) :: rest) =>
    '\x7b' :: (style.lineBreak (depth + 1) ++ quoted key ++ ':' :: style.afterColon ++
      chars style (depth + 1) value ++
      (memberChars style (depth + 1) rest ++ (style.lineBreak depth ++ ['\x7d'])))

/-- The items of an array after its first. -/
def itemChars (style : Style) (depth : Nat) : List Json → List Char
  | [] => []
  | item :: rest =>
    ',' :: (style.lineBreak depth ++ chars style depth item ++ itemChars style depth rest)

/-- The members of an object after its first. -/
def memberChars (style : Style) (depth : Nat) : List (String × Json) → List Char
  | [] => []
  | (key, value) :: rest =>
    ',' :: (style.lineBreak depth ++ quoted key ++ ':' :: style.afterColon ++
      chars style depth value ++ memberChars style depth rest)

end

def render (style : Style) (j : Json) : String := String.ofList (chars style 0 j)

end UpgradeSafety.Json
