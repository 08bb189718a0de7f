import UpgradeSafety.Json.Writer
import UpgradeSafety.Manifest.SchemaVersion
import UpgradeSafety.Manifest.Store
import UpgradeSafety.Network

/-!
# Sessions on a manifest

One user of a network's manifest. Reading takes the lock for as long as it lasts,
unless the session has it already; writing needs the lock; and a locked run has
it from its start to its end, whatever happens in between.
-/

namespace UpgradeSafety

structure ManifestConfig where
  directory : String
  /-- The number of further attempts to take a lock that is held. -/
  lockRetries : Nat
  /-- The time between two attempts in milliseconds. -/
  retryInterval : Nat
  deriving DecidableEq, Repr

def ManifestConfig.default : ManifestConfig := ⟨".upgrades", 3, 100⟩

/-- A session and whether it has the lock. -/
structure Session where
  config : ManifestConfig
  network : Network
  holder : LockHolder
  locked : Bool
  deriving DecidableEq, Repr

namespace Session

def onChain (config : ManifestConfig) (chainId : Nat) (holder : LockHolder) : Session :=
  ⟨config, .ofChainId chainId, holder, false⟩

/-- A name in a directory, where an empty directory adds nothing. -/
def pathIn (directory name : String) : String :=
  if directory = "" ∨ directory.toList.getLast? = some '/' then directory ++ name
  else directory ++ "/" ++ name

def file (s : Session) : String := pathIn s.config.directory (s.network.name ++ ".json")

def lockFile (s : Session) : String := s.file ++ ".lock"

end Session

/-- Something a session does, which keeps what it did even where it fails. -/
abbrev SessionT (m : Type → Type) (α : Type) := ExceptT ManifestError (StateT Session m) α

namespace Session

variable {m : Type → Type} [Monad m] [ManifestStore m] {α : Type}

/-- Tries to take the lock up to the given number of times, as long as another holder has it. -/
def tryLock (holder : LockHolder) : Nat → m LockAttempt
  | 0 => pure .held
  | attempts + 1 => do
    match ← ManifestStore.tryLock holder with
    | .taken => return .taken
    | .held => tryLock holder attempts
    | .refused => return .refused

/-- Takes the lock. -/
def acquire : SessionT m Unit := do
  let s ← get
  if !(← (ManifestStore.makeDirectory : m Bool)) then throw (.inaccessible s.config.directory)
  if !(← (ManifestStore.openLock : m Bool)) then throw (.inaccessible s.lockFile)
  let attempts := s.config.lockRetries + 1
  match ← (tryLock s.holder attempts : m LockAttempt) with
  | .taken => set { s with locked := true }
  | .held => throw (.lockContention s.lockFile attempts)
  | .refused => throw (.inaccessible s.lockFile)

/-- Gives the lock back, if the session has it. -/
def release : StateT Session m Unit := do
  let s ← get
  if s.locked then
    StateT.lift (ManifestStore.unlock s.holder)
    set { s with locked := false }

/-- Does something and then gives the lock back, whether it failed or not. -/
def thenRelease (body : SessionT m α) : SessionT m α :=
  ExceptT.mk do
    let result ← body.run
    release
    return result

/-- The data that a text at a path records. -/
def dataOfText (path text : String) : Except ManifestError ManifestData :=
  match Json.parseWhole text with
  | none => .error (.malformed path)
  | some document =>
    match Migration.validate document with
    | .error e => .error e
    | .ok document =>
      match ManifestData.ofJson? document with
      | none => .error (.malformed path)
      | some data => .ok data

/-- The text that records some data. -/
def textOfData (data : ManifestData) : String := Json.render Json.pretty data.toJson ++ "\n"

/-- Reads the manifest without regard to the lock. -/
def readFile : SessionT m ManifestData := do
  let s ← get
  match ← (ManifestStore.readManifest : m Reading) with
  | .absent => return .empty
  | .unreadable => throw (.inaccessible s.file)
  | .text content => ExceptT.mk (pure (dataOfText s.file content))

/-- Reads the manifest; a network without one has an empty one. -/
def read : SessionT m ManifestData := do
  if (← get).locked then readFile
  else
    acquire
    thenRelease readFile

/-- Writes the manifest. -/
def write (data : ManifestData) : SessionT m Unit := do
  let s ← get
  if !s.locked then throw .notLocked
  if !(← (ManifestStore.replaceManifest (textOfData data) : m Bool)) then
    throw (.inaccessible s.file)

/-- Does something while the session has the lock. -/
def whileLocked (body : SessionT m α) : SessionT m α := do
  if (← get).locked then throw .alreadyLocked
  acquire
  thenRelease body

def admin : SessionT m (Option Deployment) := return (← read).admin

/-- The implementation recorded for an address. -/
def implementationAt (address : String) : SessionT m Implementation := do
  match (← read).implementationAt? address with
  | some i => return i
  | none => throw (.deploymentNotFound address)

end Session

end UpgradeSafety
