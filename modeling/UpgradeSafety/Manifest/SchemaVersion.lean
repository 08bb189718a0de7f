import UpgradeSafety.Manifest.Data
import UpgradeSafety.Manifest.Error
import UpgradeSafety.Text.Split

/-!
# Schema versions

A version is one to three numbers with dots between them, and missing numbers
count as zero. A document of the current version is taken as it is, one of the
previous version after its version is raised in its place, and every other one is
refused.
-/

namespace UpgradeSafety

open Json (Members)

structure SchemaVersion where
  major : Nat
  minor : Nat
  patch : Nat
  deriving DecidableEq, Repr

namespace SchemaVersion

def ofNumbers? : List Nat → Option SchemaVersion
  | [major] => some ⟨major, 0, 0⟩
  | [major, minor] => some ⟨major, minor, 0⟩
  | [major, minor, patch] => some ⟨major, minor, patch⟩
  | _ => none

def parse? (text : String) : Option SchemaVersion :=
  ((Text.splitOn '.' text.toList).mapM (Numeral.read? Numeral.bound64)).bind ofNumbers?

/-- The order by the first number that differs. -/
def compare (a b : SchemaVersion) : Ordering :=
  (Ord.compare a.major b.major).then
    ((Ord.compare a.minor b.minor).then (Ord.compare a.patch b.patch))

/-- The version of the oldest documents that can be read. -/
def oldest : SchemaVersion := ⟨3, 0, 0⟩

/-- The version of the documents that are written. -/
def current : SchemaVersion := ⟨3, 1, 0⟩

end SchemaVersion

namespace Migration

def versionKey : String := "manifestVersion"

/-- The version that a document states. -/
def version? (document : Json) : Option String :=
  (document.member? versionKey).bind Json.asString?

/-- Gives a member of an object another value. -/
def replaceMember (key : String) (value : Json) : Members → Members
  | [] => []
  | (k, v) :: rest => if k = key then (k, value) :: rest else (k, v) :: replaceMember key value rest

def withVersion (version : String) : Json → Json
  | .object ms => .object (replaceMember versionKey (.string version) ms)
  | j => j

/-- A change of a document in its place, which may fail after a part of it is made. -/
abbrev InPlace := ExceptT ManifestError (StateM Json) Unit

/-- Raises a document of the previous version to the current one. -/
def raise : InPlace := do
  match version? (← get) with
  | none => throw .missingVersion
  | some version =>
    if version = oldestSchemaVersion then modify (withVersion currentSchemaVersion)
    else throw (.migrationUnavailable version)

/-- Makes sure that a document has the current version, which it is raised to where possible. -/
def check : InPlace := do
  match version? (← get) with
  | none => throw .missingVersion
  | some version =>
    match SchemaVersion.parse? version with
    | none => throw (.unknownVersion version)
    | some parsed =>
      if parsed.compare .oldest = .lt then throw (.legacy version)
      else if parsed.compare .current = .lt then raise
      else if version = currentSchemaVersion then return ()
      else throw (.unknownVersion version)

/-- The result of a change and the document afterwards. -/
def on (change : InPlace) (document : Json) : Except ManifestError Unit × Json :=
  (ExceptT.run change).run document

/-- What a change makes of a document, unless it fails. -/
def outcome (change : InPlace) (document : Json) : Except ManifestError Json :=
  match on change document with
  | (.ok (), after) => .ok after
  | (.error e, _) => .error e

/-- A document of the previous version, raised to the current one. -/
def migrate : Json → Except ManifestError Json := outcome raise

/-- A document of the current version, raised to it where that is possible. -/
def validate : Json → Except ManifestError Json := outcome check

theorem on_get_bind (next : Json → InPlace) (document : Json) :
    on (get >>= next) document = on (next document) document := rfl

theorem on_raise (document : Json) : on raise document =
    match version? document with
    | none => (.error .missingVersion, document)
    | some version =>
      if version = oldestSchemaVersion then (.ok (), withVersion currentSchemaVersion document)
      else (.error (.migrationUnavailable version), document) := by
  rw [raise, on_get_bind]
  split
  · rfl
  · split <;> rfl

theorem on_check (document : Json) : on check document =
    match version? document with
    | none => (.error .missingVersion, document)
    | some version =>
      match SchemaVersion.parse? version with
      | none => (.error (.unknownVersion version), document)
      | some parsed =>
        if parsed.compare .oldest = .lt then (.error (.legacy version), document)
        else if parsed.compare .current = .lt then on raise document
        else if version = currentSchemaVersion then (.ok (), document)
        else (.error (.unknownVersion version), document) := by
  rw [check, on_get_bind]
  split
  · rfl
  · split
    · rfl
    · split
      · rfl
      · split
        · rfl
        · split <;> rfl

theorem outcome_eq_ok {change : InPlace} {document after : Json} :
    outcome change document = .ok after ↔ on change document = (.ok (), after) := by
  rw [outcome]
  split
  · next after' changed => simp [changed]
  · next e after' changed => simp [changed]

end Migration

end UpgradeSafety
