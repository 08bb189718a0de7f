import UpgradeSafety.Numeral

/-!
# Where a manifest is kept

A directory with the manifest and, beside it, a lock file that at most one holder
has locked. What a session does there are single steps, each of which happens
entirely or not at all; replacing the manifest is one of them. A disk is one such
directory by itself.
-/

namespace UpgradeSafety

/-- Who takes the lock: every handle on the lock file is another holder. -/
abbrev LockHolder := Nat

/-- What reading the manifest finds. -/
inductive Reading where
  | absent
  /-- Not a file, or not a text. -/
  | unreadable
  | text (content : String)
  deriving DecidableEq, Repr

/-- What trying to take the lock comes to. -/
inductive LockAttempt where
  | taken
  /-- Another holder has the lock. -/
  | held
  /-- The file system does not lock the file. -/
  | refused
  deriving DecidableEq, Repr

/-- The steps that a session takes in the directory of its manifest. -/
class ManifestStore (m : Type → Type) where
  /-- Makes the directory, unless it is there; false if it cannot be made. -/
  makeDirectory : m Bool
  /-- Opens the lock file, which is created if need be; false if it cannot be opened. -/
  openLock : m Bool
  /-- Takes the lock without waiting, unless it is held. -/
  tryLock : LockHolder → m LockAttempt
  unlock : LockHolder → m Unit
  readManifest : m Reading
  /-- Puts a text in the place of the manifest; false if that fails. -/
  replaceManifest : String → m Bool

/-- Steps can be taken under any state of one's own. -/
instance {σ : Type} {m : Type → Type} [Monad m] [ManifestStore m] : ManifestStore (StateT σ m) where
  makeDirectory := StateT.lift ManifestStore.makeDirectory
  openLock := StateT.lift ManifestStore.openLock
  tryLock holder := StateT.lift (ManifestStore.tryLock holder)
  unlock holder := StateT.lift (ManifestStore.unlock holder)
  readManifest := StateT.lift ManifestStore.readManifest
  replaceManifest text := StateT.lift (ManifestStore.replaceManifest text)

/-! ## A disk -/

inductive DirectoryState where
  | missing
  /-- A file stands in its place. -/
  | blocked
  | present
  deriving DecidableEq, Repr

/-- What stands at a path; a file that is not text has no content. -/
inductive Entry where
  | absent
  | file (content : Option String)
  | directory
  deriving DecidableEq, Repr

structure Disk where
  directory : DirectoryState
  manifest : Entry
  lock : Entry
  holder : Option LockHolder
  deriving DecidableEq, Repr

namespace Disk

def empty : Disk := ⟨.missing, .absent, .absent, none⟩

def makeDirectory (d : Disk) : Bool × Disk :=
  match d.directory with
  | .blocked => (false, d)
  | _ => (true, { d with directory := .present })

def openLock (d : Disk) : Bool × Disk :=
  match d.directory, d.lock with
  | .present, .absent => (true, { d with lock := .file (some "") })
  | .present, .file _ => (true, d)
  | _, _ => (false, d)

def tryLock (d : Disk) (holder : LockHolder) : Bool × Disk :=
  match d.holder with
  | none => (true, { d with holder := some holder })
  | some _ => (false, d)

/-- What trying to take the lock of a disk comes to. -/
def attemptLock (d : Disk) (holder : LockHolder) : LockAttempt × Disk :=
  match d.tryLock holder with
  | (true, d) => (.taken, d)
  | (false, d) => (.held, d)

def unlock (d : Disk) (holder : LockHolder) : Disk :=
  if d.holder = some holder then { d with holder := none } else d

def readManifest (d : Disk) : Reading :=
  match d.directory, d.manifest with
  | .present, .file (some content) => .text content
  | .present, .file none => .unreadable
  | .present, .directory => .unreadable
  | .present, .absent => .absent
  | .missing, _ => .absent
  | .blocked, _ => .unreadable

def replaceManifest (d : Disk) (text : String) : Bool × Disk :=
  match d.directory, d.manifest with
  | .present, .directory => (false, d)
  | .present, _ => (true, { d with manifest := .file (some text) })
  | _, _ => (false, d)

end Disk

instance : ManifestStore (StateM Disk) where
  makeDirectory := Disk.makeDirectory
  openLock := Disk.openLock
  tryLock holder d := d.attemptLock holder
  unlock holder d := ((), d.unlock holder)
  readManifest d := (d.readManifest, d)
  replaceManifest text d := d.replaceManifest text

end UpgradeSafety
