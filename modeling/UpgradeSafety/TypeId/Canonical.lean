import UpgradeSafety.Numeral
import UpgradeSafety.TypeId.Encoding

/-!
# Canonical type ids

An id that depends neither on the node ids of a compilation nor on whether a
storage type was met through a pointer. The node id behind the name of a
declared type is dropped with the underscore that separates it from a location,
and the name may be replaced by one that tells two declarations apart.
-/

namespace UpgradeSafety

/-- The number that the compiler gives to a node of its syntax tree. -/
abbrev NodeId := Int

/-- A canonical type identifier, such as `t_mapping(t_address,t_struct(Data)storage)`. -/
abbrev TypeId := String

namespace TypeId

/-! ## Storage pointers -/

/-- Replaces a nonempty pattern from left to right, after passing over `skip` characters. -/
def replaceFrom (pattern replacement : List Char) : Nat → List Char → List Char
  | _, [] => []
  | skip + 1, _ :: rest => replaceFrom pattern replacement skip rest
  | 0, c :: rest =>
    if pattern.isPrefixOf (c :: rest) then
      replacement ++ replaceFrom pattern replacement (pattern.length - 1) rest
    else c :: replaceFrom pattern replacement 0 rest

def normalizeChars (text : List Char) : List Char :=
  replaceFrom "_storage_ptr".toList "_storage".toList 0 (decodeChars text)

/-- Decodes an identifier and writes every storage pointer as a storage reference. -/
def normalize (raw : String) : String := String.ofList (normalizeChars raw.toList)

/-! ## Declared types -/

/-- How the types begin that carry the name and node id of a declaration. -/
def declaredHeads : List (List Char) :=
  ["t_struct(".toList, "t_enum(".toList, "t_contract(".toList, "t_userDefinedValueType(".toList]

/-- A piece of a decoded identifier. -/
inductive Segment where
  | char (c : Char)
  | declared (head name : List Char) (node : Option NodeId)
  deriving DecidableEq, Repr

/--
A declared type at the front of a text, with the number of characters it takes:
its head, its name, the closing bracket, the node id and, behind a node id, the
underscore. A node id of more than 63 bits is passed over without being read.
-/
def declaredAt? (text : List Char) : Option (Segment × Nat) :=
  declaredHeads.findSome? fun head =>
    if head.isPrefixOf text then
      let named := text.drop head.length
      let name := named.takeWhile (· ≠ ')')
      match named.drop name.length with
      | [] => none
      | _ :: after =>
        let digits := after.takeWhile Char.isDigit
        let separator := if digits ≠ [] ∧ (after.drop digits.length).head? = some '_' then 1 else 0
        let node := (Numeral.ofDigits? Numeral.bound63 digits).map Int.ofNat
        some (.declared head name node, head.length + name.length + 1 + digits.length + separator)
    else none

/-- The pieces of a text whose first `skip` characters have been taken. -/
def segmentsFrom : Nat → List Char → List Segment
  | _, [] => []
  | skip + 1, _ :: rest => segmentsFrom skip rest
  | 0, c :: rest =>
    match declaredAt? (c :: rest) with
    | some (segment, length) => segment :: segmentsFrom (length - 1) rest
    | none => .char c :: segmentsFrom 0 rest

/-- The pieces of a raw identifier after decoding. -/
def segments (raw : String) : List Segment := segmentsFrom 0 (normalizeChars raw.toList)

def Segment.node? : Segment → Option NodeId
  | .declared _ _ node => node
  | .char _ => none

/-- Writes a piece without its node id, under the name that `qualify` chooses for it. -/
def Segment.chars (qualify : NodeId → Option String) : Segment → List Char
  | .char c => [c]
  | .declared head name node =>
    head ++ ((node.bind qualify).map String.toList).getD name ++ [')']

/-- The node ids that occur in a raw identifier, in order. -/
def nodes (raw : String) : List NodeId := (segments raw).filterMap Segment.node?

/-- The canonical id of a raw identifier, with declared types named by `qualify`. -/
def canonicalWith (qualify : NodeId → Option String) (raw : String) : TypeId :=
  String.ofList ((segments raw).flatMap (Segment.chars qualify))

/-- The canonical id of a raw identifier, with declared types named as declared. -/
def canonical (raw : String) : TypeId := canonicalWith (fun _ => none) raw

end TypeId

end UpgradeSafety
