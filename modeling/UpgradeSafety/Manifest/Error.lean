/-!
# What can go wrong with a manifest

The causes for which a manifest is not read, written or locked, and their texts.
-/

namespace UpgradeSafety

inductive ManifestError where
  /-- The file system refused an access. -/
  | inaccessible (path : String)
  /-- The manifest is not a document of the expected form. -/
  | malformed (path : String)
  | missingVersion
  /-- The manifest is older than any that can be read. -/
  | legacy (version : String)
  | unknownVersion (version : String)
  | migrationUnavailable (version : String)
  | notLocked
  | alreadyLocked
  | lockContention (path : String) (attempts : Nat)
  | deploymentNotFound (address : String)
  deriving DecidableEq, Repr

def ManifestError.message : ManifestError → String
  | inaccessible path => s!"Could not access the manifest at {path}"
  | malformed path => s!"The manifest at {path} is not valid"
  | missingVersion => "Manifest version is missing"
  | legacy version =>
    s!"Found a manifest file with version {version}, written by a legacy tool. " ++
      "An automated migration is not available"
  | unknownVersion version => s!"Unknown value for manifest version ({version})"
  | migrationUnavailable version => s!"Manifest migration not available from version {version}"
  | notLocked => "Manifest must be locked"
  | alreadyLocked => "Manifest is already locked"
  | lockContention path attempts =>
    s!"The manifest lock at {path} is still held after {attempts} attempts"
  | deploymentNotFound address => s!"Deployment at address {address} is not registered"

end UpgradeSafety
