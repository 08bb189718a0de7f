import UpgradeSafety.Json.Basic
import UpgradeSafety.Numeral
import UpgradeSafety.Table

/-!
# Reading documents

How the parts of a document are taken from a JSON value. Unknown members are
ignored. A required member has to be there; an optional one may be absent or
`null`; one with a default may be absent but not `null`. None of them may be
there twice. A record may also be an array of the values of its fields, in their
order. A value of another type than expected makes the whole document unreadable.
-/

namespace UpgradeSafety.Json

def asBool? : Json → Option Bool
  | .bool b => some b
  | _ => none

def asString? : Json → Option String
  | .string s => some s
  | _ => none

/-- A word, alone or as the only key of an object with nothing behind it. -/
def asKeyword? : Json → Option String
  | .string word => some word
  | .object [(word, .null)] => some word
  | .object [(word, .object [])] => some word
  | _ => none

/-- One of some words, or its position among them; positions beyond them are no word. -/
def asKeywordOrPosition? (words : List String) : Json → Option String
  | .string word => some word
  | .integer (.ofNat position) => some (words.getD position "")
  | _ => none

def asArray? : Json → Option (List Json)
  | .array items => some items
  | _ => none

def asObject? : Json → Option (List (String × Json))
  | .object members => some members
  | _ => none

/-- A whole number from `low` up to but not including `high`. -/
def asInteger? (low high : Int) : Json → Option Int
  | .integer n => if low ≤ n ∧ n < high then some n else none
  | _ => none

/-- A whole number below `bound`. -/
def asNatural? (bound : Nat) (j : Json) : Option Nat := (j.asInteger? 0 bound).map Int.toNat

/-- A signed 64-bit number. -/
def asSigned64? : Json → Option Int :=
  asInteger? (-Int.ofNat Numeral.bound63) (Int.ofNat Numeral.bound63)

/-- A 256-bit number, which is written as a string of decimal digits. -/
def asWord? (j : Json) : Option Nat :=
  j.asString?.bind fun text => Numeral.read? Numeral.bound256 text.toList

def ofWord (n : Nat) : Json := .string (Numeral.write n)

def asList? {α : Type} (read : Json → Option α) (j : Json) : Option (List α) :=
  j.asArray?.bind (List.mapM read)

/-- An object from arbitrary keys to values of one kind. -/
def asTable? {α : Type} (read : Json → Option α) (j : Json) : Option (Table α) := do
  let members ← j.asObject?
  let entries ← members.mapM fun (key, value) => (read value).map (key, ·)
  some (Table.ofList entries)

def ofTable {α : Type} (write : α → Json) (t : Table α) : Json :=
  .object (t.entries.map fun (key, value) => (key, write value))

/-- Either `null` or a value of one kind. -/
def asNullable? {α : Type} (read : Json → Option α) : Json → Option (Option α)
  | .null => some none
  | j => (read j).map some

/-! ## Members of an object -/

/-- The members of an object. -/
abbrev Members := List (String × Json)

/-- The value of a member, or none if it is absent; a member that is repeated cannot be read. -/
def field? (key : String) (members : Members) : Option (Option Json) :=
  if (members.map Prod.fst).count key ≤ 1 then some (members.lookup key) else none

def required {α : Type} (read : Json → Option α) (key : String) (members : Members) : Option α :=
  (field? key members).join.bind read

def optional {α : Type} (read : Json → Option α) (key : String) (members : Members) :
    Option (Option α) :=
  (field? key members).bind fun j => j.elim (some none) (asNullable? read)

def defaulted {α : Type} (default : α) (read : Json → Option α) (key : String)
    (members : Members) : Option α :=
  (field? key members).bind fun j => j.elim (some default) read

/-- The value of a member, if the value is an object that has it. -/
def member? (key : String) (j : Json) : Option Json := j.asObject?.bind (List.lookup key)

/-! ## Records -/

/-- The members of a record: an object, or an array of the values of its first fields. -/
def asRecord? (fields : List String) : Json → Option Members
  | .object members => some members
  | .array values => if values.length ≤ fields.length then some (fields.zip values) else none
  | _ => none

/--
What tells the kind of a record, and the record. The kind is a member of an object among the
others, and the first item of an array in front of the values.
-/
def tagged? (key : String) : Json → Option (Json × Json)
  | .object members => (field? key members).join.map (·, .object members)
  | .array (kind :: values) => some (kind, .array values)
  | _ => none

/-- Whether a record may be passed over: members are ignored, but the values of an array are not. -/
def isIgnorable : Json → Bool
  | .array (_ :: _) => false
  | _ => true

end UpgradeSafety.Json
