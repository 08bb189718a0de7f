import UpgradeSafety.Numeral

/-!
# JSON values

The documents of this library as data. Whole numbers between the least signed
and the greatest unsigned 64-bit number are integers; every other number is an
exact decimal, so that what is only passed through is not rounded.

A text may also hold values that can be skipped but not read. Each of them is
the one value `unreadable`, so that a document is not spoiled by what it ignores.
-/

namespace UpgradeSafety

/-- The number `significand * 10 ^ exponent` with a sign, which zero has too. -/
structure Decimal where
  negative : Bool
  significand : Nat
  exponent : Int
  deriving DecidableEq, Repr

inductive Json where
  /--
  Keeps to the grammar but cannot be read: a number beyond the doubles, a string
  or a key with half of a surrogate pair, or a value that is nested too deeply.
  -/
  | unreadable
  | null
  | bool (value : Bool)
  | integer (value : Int)
  | decimal (value : Decimal)
  | string (text : String)
  | array (items : List Json)
  | object (members : List (String × Json))
  deriving Repr, Inhabited

namespace Json

/-- The whole numbers that are kept as integers. -/
def isInteger (n : Int) : Bool := -Int.ofNat Numeral.bound63 ≤ n && n < Int.ofNat Numeral.bound64

def strings (texts : List String) : Json := .array (texts.map .string)

def natural (n : Nat) : Json := .integer n

/-- What an optional value is written as where none is `null`. -/
def orNull {α : Type} (write : α → Json) : Option α → Json
  | none => .null
  | some a => write a

/-- A member that is left out when there is nothing to write. -/
def optionalMember {α : Type} (key : String) (write : α → Json) :
    Option α → List (String × Json)
  | none => []
  | some a => [(key, write a)]

mutual

/-- The number of arrays and objects around the innermost value. -/
def depth : Json → Nat
  | .array items => depthOfItems items + 1
  | .object members => depthOfMembers members + 1
  | _ => 0

def depthOfItems : List Json → Nat
  | [] => 0
  | item :: rest => max item.depth (depthOfItems rest)

def depthOfMembers : List (String × Json) → Nat
  | [] => 0
  | (_, value) :: rest => max value.depth (depthOfMembers rest)

end

mutual

/-- The value where arrays and objects inside more than `limit` others cannot be read. -/
def within : Nat → Json → Json
  | 0, .array _ => .unreadable
  | limit + 1, .array items => .array (itemsWithin limit items)
  | 0, .object _ => .unreadable
  | limit + 1, .object members => .object (membersWithin limit members)
  | _, j => j

def itemsWithin (limit : Nat) : List Json → List Json
  | [] => []
  | item :: rest => within limit item :: itemsWithin limit rest

def membersWithin (limit : Nat) : List (String × Json) → List (String × Json)
  | [] => []
  | (key, value) :: rest => (key, within limit value) :: membersWithin limit rest

end

mutual

/-- The value where of several members with one key only the last one is left. -/
def settled : Json → Json
  | .array items => .array (itemsSettled items)
  | .object members => .object (membersSettled members)
  | j => j

def itemsSettled : List Json → List Json
  | [] => []
  | item :: rest => item.settled :: itemsSettled rest

def membersSettled : List (String × Json) → List (String × Json)
  | [] => []
  | (key, value) :: rest =>
    if key ∈ rest.map Prod.fst then membersSettled rest
    else (key, value.settled) :: membersSettled rest

end

mutual

/-- Whether a value and all that it holds can be read. -/
def isWhole : Json → Bool
  | .unreadable => false
  | .array items => itemsWhole items
  | .object members => membersWhole members
  | _ => true

def itemsWhole : List Json → Bool
  | [] => true
  | item :: rest => item.isWhole && itemsWhole rest

def membersWhole : List (String × Json) → Bool
  | [] => true
  | (_, value) :: rest => value.isWhole && membersWhole rest

end

/-- The value, if all of it can be read. -/
def whole? (j : Json) : Option Json := if j.isWhole then some j else none

end Json

end UpgradeSafety
