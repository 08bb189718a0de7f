import UpgradeSafety.Json.Basic
import UpgradeSafety.Json.Double

/-!
# Reading JSON text

The grammar of RFC 8259 over the characters of a text, strictly: only space,
tab, line feed and carriage return between tokens, no leading zeros, no
unescaped control characters. A number beyond the doubles, a string with half of
a surrogate pair and an array or object inside `maxDepth` others keep to the
grammar: they are unreadable values, for which the text is not refused.
-/

namespace UpgradeSafety.Json

/-- Takes a value off the front of the characters. -/
abbrev Reader (α : Type) := List Char → Option (α × List Char)

/-- The greatest number of arrays and objects that may enclose a value. -/
def maxDepth : Nat := 127

def isSpace (c : Char) : Bool := c = ' ' || c = '\t' || c = '\n' || c = '\r'

def skipSpace : List Char → List Char := List.dropWhile isSpace

/-! ## Strings -/

def hexValue? (c : Char) : Option Nat :=
  if '0' ≤ c && c ≤ '9' then some (c.toNat - '0'.toNat)
  else if 'a' ≤ c && c ≤ 'f' then some (c.toNat - 'a'.toNat + 10)
  else if 'A' ≤ c && c ≤ 'F' then some (c.toNat - 'A'.toNat + 10)
  else none

/-- The value of four hexadecimal digits. -/
def codeUnit : Reader Nat
  | a :: b :: c :: d :: rest => do
    let a ← hexValue? a
    let b ← hexValue? b
    let c ← hexValue? c
    let d ← hexValue? d
    some (((a * 16 + b) * 16 + c) * 16 + d, rest)
  | _ => none

def isHighSurrogate (unit : Nat) : Bool := 0xD800 ≤ unit && unit < 0xDC00

def isLowSurrogate (unit : Nat) : Bool := 0xDC00 ≤ unit && unit < 0xE000

/--
The character behind a backslash and the letter `u`, which may take a second
escape. There is none if the escape is half of a surrogate pair without the other.
-/
def escapedCodePoint : Reader (Option Char) := fun s => do
  let (unit, rest) ← codeUnit s
  if isHighSurrogate unit then
    match rest with
    | '\\' :: 'u' :: after =>
      let (low, after) ← codeUnit after
      if isLowSurrogate low then
        some (Char.ofNat (0x10000 + (unit - 0xD800) * 0x400 + (low - 0xDC00)), after)
      else some (none, rest)
    | _ => some (none, rest)
  else if isLowSurrogate unit then some (none, rest)
  else some (Char.ofNat unit, rest)

/-- The character that a one-letter escape stands for. -/
def shortEscape? (c : Char) : Option Char :=
  match c with
  | '"' => some '"'
  | '\\' => some '\\'
  | '/' => some '/'
  | 'b' => some '\x08'
  | 'f' => some '\x0c'
  | 'n' => some '\n'
  | 'r' => some '\r'
  | 't' => some '\t'
  | _ => none

/-- One character of a string, which is not the closing quote. -/
def stringChar : Reader (Option Char)
  | '\\' :: 'u' :: rest => escapedCodePoint rest
  | '\\' :: c :: rest => (shortEscape? c).map fun c => (some c, rest)
  | c :: rest => if c.toNat < 0x20 || c = '\\' then none else some (some c, rest)
  | [] => none

/-- The characters up to the closing quote, of which there are fewer than `fuel`. -/
def stringBody : Nat → Reader (List (Option Char))
  | 0, _ => none
  | _ + 1, '"' :: rest => some ([], rest)
  | fuel + 1, s => do
    let (c, rest) ← stringChar s
    let (body, rest) ← stringBody fuel rest
    some (c :: body, rest)

/-- The text between two quotes, if it has no half of a surrogate pair. -/
def text? (body : List (Option Char)) : Option String := (body.mapM id).map String.ofList

/-! ## Numbers -/

/-- A nonempty run of digits. -/
def digits1 : Reader (List Char) := fun s =>
  match s.takeWhile Char.isDigit with
  | [] => none
  | digits => some (digits, s.dropWhile Char.isDigit)

/-- The digits behind a decimal point, none of them if there is no point. -/
def fraction : Reader (List Char)
  | '.' :: s => digits1 s
  | s => some ([], s)

/-- The exponent of a number, or none if it has none. -/
def exponent : Reader (Option Int)
  | c :: s =>
    if c = 'e' || c = 'E' then
      let (negative, s) := match s with
        | '-' :: s => (true, s)
        | '+' :: s => (false, s)
        | s => (false, s)
      (digits1 s).map fun (digits, s) =>
        let n : Int := Nat.ofDigitChars 10 digits 0
        (some (if negative then -n else n), s)
    else some (none, c :: s)
  | [] => some (none, [])

/-- The value of a number from its parts. -/
def numberOf (negative : Bool) (whole decimals : List Char) (exponent : Option Int) : Json :=
  let n := Nat.ofDigitChars 10 (whole ++ decimals) 0
  let signed : Int := if negative then -n else n
  if decimals = [] && exponent = none && isInteger signed && !(negative && n = 0) then
    .integer signed
  else if isFinite whole decimals (exponent.getD 0) then
    .decimal ⟨negative, n, exponent.getD 0 - decimals.length⟩
  else .unreadable

def number : Reader Json := fun s => do
  let (negative, s) := match s with
    | '-' :: s => (true, s)
    | s => (false, s)
  let (whole, s) ← digits1 s
  if whole.head? = some '0' && 1 < whole.length then none
  else
    let (decimals, s) ← fraction s
    let (power, s) ← exponent s
    some (numberOf negative whole decimals power, s)

/-! ## Values -/

/-- Items separated by commas up to `close`, at least one and at most `fuel`. -/
def items {α : Type} (item : Reader α) (close : Char) : Nat → Reader (List α)
  | 0, _ => none
  | fuel + 1, s => do
    let (first, s) ← item s
    match skipSpace s with
    | ',' :: s =>
      let (rest, s) ← items item close fuel s
      some (first :: rest, s)
    | c :: s => if c = close then some ([first], s) else none
    | [] => none

/-- Items separated by commas up to `close`, possibly none. -/
def sequence {α : Type} (item : Reader α) (close : Char) (fuel : Nat) : Reader (List α) := fun s =>
  match skipSpace s with
  | c :: rest => if c = close then some ([], rest) else items item close fuel s
  | [] => none

/-- A quoted key, a colon and a value. -/
def member (value : Reader Json) (fuel : Nat) : Reader (Option String × Json) := fun s =>
  match skipSpace s with
  | '"' :: s => do
    let (key, s) ← stringBody fuel s
    match skipSpace s with
    | ':' :: s =>
      let (j, s) ← value s
      some ((text? key, j), s)
    | _ => none
  | _ => none

/-- A string, if its text can be read. -/
def stringOf (body : List (Option Char)) : Json := (text? body).elim .unreadable .string

/-- A member, if its key can be read. -/
def keyed? : Option String × Json → Option (String × Json)
  | (key, j) => key.map (·, j)

/--
An object, if its keys can be read. Of several members with one key all are kept here, as it
depends on the document what becomes of them: `parseWhole` lets the last one win, and a record
that is read from the text may not have a field twice.
-/
def objectOf (members : List (Option String × Json)) : Json :=
  (members.mapM keyed?).elim .unreadable .object

/-- A fixed word that stands for a value. -/
def word (letters : String) (j : Json) : Reader Json := fun s =>
  if letters.toList.isPrefixOf s then some (j, s.drop letters.length) else none

/-- A value that holds no other one, at the first character of the text. -/
def scalar (fuel : Nat) : Reader Json
  | '"' :: s => (stringBody fuel s).map fun (body, s) => (stringOf body, s)
  | 'n' :: s => word "ull" .null s
  | 't' :: s => word "rue" (.bool true) s
  | 'f' :: s => word "alse" (.bool false) s
  | s => number s

/-- A value of fewer than `fuel` characters. -/
def value : Nat → Reader Json
  | 0, _ => none
  | fuel + 1, s =>
    match skipSpace s with
    | '[' :: s => (sequence (value fuel) ']' fuel s).map fun (xs, s) => (.array xs, s)
    | '\x7b' :: s =>
      (sequence (member (value fuel) fuel) '\x7d' fuel s).map fun (ms, s) => (objectOf ms, s)
    | s => scalar (fuel + 1) s

/-- Reads a text that holds one value and nothing else but space around it. -/
def parse (text : String) : Option Json :=
  let s := text.toList
  match value (s.length + 1) s with
  | some (j, rest) => if (skipSpace rest).isEmpty then some (j.within maxDepth) else none
  | none => none

/-- Reads a text of which every value can be read; the last of several members with one key wins. -/
def parseWhole (text : String) : Option Json := ((parse text).bind whole?).map settled

end UpgradeSafety.Json
