import UpgradeSafety.Json.Document
import UpgradeSafety.Json.Reader
import UpgradeSafety.Layout.Document

/-!
# What a manifest records

The proxy admin of a network and the implementations deployed to it, each with
the layout that it was deployed with. Addresses are the same when they are the
same bytes in hexadecimal, in either case and with or without `0x` in front, and
otherwise when they are the same text.
-/

namespace UpgradeSafety

open Json (Members required optional defaulted optionalMember asString? asNullable?)

/-- The schema version that is written. -/
def currentSchemaVersion : String := "3.1"

/-- The oldest schema version that can be read. -/
def oldestSchemaVersion : String := "3.0"

structure Deployment where
  address : String
  txHash : Option String
  deriving DecidableEq, Repr

structure Implementation where
  deployment : Deployment
  layout : Layout
  deriving DecidableEq

structure ManifestData where
  schemaVersion : String
  admin : Option Deployment
  /-- The implementations by an identifier of their code. -/
  impls : Table (Option Implementation)
  deriving DecidableEq

namespace Deployment

def toMembers (d : Deployment) : Members :=
  ("address", .string d.address) :: optionalMember "txHash" .string d.txHash

def toJson (d : Deployment) : Json := .object d.toMembers

def ofMembers? (ms : Members) : Option Deployment :=
  return ⟨← required asString? "address" ms, ← optional asString? "txHash" ms⟩

def ofJson? (j : Json) : Option Deployment := (j.asRecord? ["address", "txHash"]).bind ofMembers?

end Deployment

namespace Implementation

def toJson (i : Implementation) : Json :=
  .object (i.deployment.toMembers ++ [("layout", i.layout.toJson)])

def ofJson? (j : Json) : Option Implementation := do
  let ms ← j.asObject?
  return ⟨← Deployment.ofMembers? ms, ← required Layout.ofJson? "layout" ms⟩

end Implementation

/-! ## Addresses -/

/-- The digits behind an optional `0x`. -/
def addressDigits (address : List Char) : List Char :=
  match address with
  | '0' :: 'x' :: digits => digits
  | digits => digits

/-- The hexadecimal digits of an address that consists of whole bytes. -/
def addressValue? (address : String) : Option (List Nat) :=
  let digits := addressDigits address.toList
  if digits.length % 2 = 0 then digits.mapM Json.hexValue? else none

def sameBytesOrText (a b : String) : Bool :=
  match addressValue? a, addressValue? b with
  | some a, some b => a = b
  | _, _ => a = b

namespace ManifestData

/-- What a network without a manifest has. -/
def empty : ManifestData := ⟨currentSchemaVersion, none, .empty⟩

/-- The first implementation, in the order of the identifiers, at an address. -/
def implementationAt? (data : ManifestData) (address : String) : Option Implementation :=
  (data.impls.values.filterMap id).find? fun i => sameBytesOrText i.deployment.address address

def toJson (data : ManifestData) : Json :=
  .object <|
    ("manifestVersion", .string data.schemaVersion) ::
      optionalMember "admin" Deployment.toJson data.admin ++
      [("impls", .ofTable (Json.orNull Implementation.toJson) data.impls)]

def ofJson? (j : Json) : Option ManifestData := do
  let ms ← j.asRecord? ["manifestVersion", "admin", "impls"]
  return {
    schemaVersion := ← required asString? "manifestVersion" ms
    admin := ← optional Deployment.ofJson? "admin" ms
    impls := ← defaulted .empty (Json.asTable? (asNullable? Implementation.ofJson?)) "impls" ms }

end ManifestData

end UpgradeSafety
