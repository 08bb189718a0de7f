import UpgradeSafety.Proofs.Manifest.Documents
import UpgradeSafety.Proofs.Manifest.SessionRuns

/-!
# Manifests that read back as they were written

What one session writes under the lock is what it and every later session reads,
in every field, up to the version, which becomes the current one.
-/

namespace UpgradeSafety

/-- Whether a session that wants to can lock and write the manifest. -/
structure Disk.Writable (d : Disk) : Prop where
  directory : d.directory ≠ .blocked
  lock : d.lock ≠ .directory
  manifest : d.manifest ≠ .directory
  free : d.holder = none

/-- What stands at a path once a file there was opened. -/
def Entry.opened : Entry → Entry
  | .absent => .file (some "")
  | entry => entry

lemma Entry.opened_opened (entry : Entry) : entry.opened.opened = entry.opened := by
  cases entry <;> rfl

lemma Entry.opened_ne_directory {entry : Entry} (h : entry ≠ .directory) :
    entry.opened ≠ .directory := by
  cases entry with
  | directory => exact absurd rfl h
  | absent | file content => exact nofun

/-- The disk once a holder has taken the lock. -/
def Disk.lockedBy (d : Disk) (holder : LockHolder) : Disk :=
  { d with directory := .present, lock := d.lock.opened, holder := some holder }

/-- The disk with a text in the place of the manifest. -/
def Disk.holding (d : Disk) (text : String) : Disk := { d with manifest := .file (some text) }

/-- The disk once a text was written under the lock and the lock was given back. -/
def Disk.withManifest (d : Disk) (text : String) : Disk :=
  { d.holding text with directory := .present, lock := d.lock.opened, holder := none }

lemma Disk.unlock_holding (d : Disk) (holder : LockHolder) (text : String) :
    ((d.lockedBy holder).holding text).unlock holder = d.withManifest text := by
  simp [unlock, lockedBy, holding, withManifest]

lemma Disk.unlock_withManifest (d : Disk) (holder : LockHolder) (text : String) :
    ((d.withManifest text).lockedBy holder).unlock holder = d.withManifest text := by
  simp [unlock, lockedBy, holding, withManifest, Entry.opened_opened]

namespace Disk

section

variable (d : Disk)

@[simp] lemma run_makeDirectory :
    (ManifestStore.makeDirectory : StateM Disk Bool).run d = pure (d.makeDirectory) := rfl

@[simp] lemma run_openLock :
    (ManifestStore.openLock : StateM Disk Bool).run d = pure (d.openLock) := rfl

@[simp] lemma run_tryLock (holder : LockHolder) :
    (ManifestStore.tryLock holder : StateM Disk LockAttempt).run d =
      pure (d.attemptLock holder) := rfl

@[simp] lemma run_unlock (holder : LockHolder) :
    (ManifestStore.unlock holder : StateM Disk Unit).run d = pure ((), d.unlock holder) := rfl

@[simp] lemma run_readManifest :
    (ManifestStore.readManifest : StateM Disk Reading).run d = pure (d.readManifest, d) := rfl

@[simp] lemma run_replaceManifest (text : String) :
    (ManifestStore.replaceManifest text : StateM Disk Bool).run d =
      pure (d.replaceManifest text) := rfl

end

lemma makeDirectory_eq {d : Disk} (directory : d.directory ≠ .blocked) :
    d.makeDirectory = (true, { d with directory := .present }) := by
  obtain ⟨directory', manifest, lock, holder⟩ := d
  cases directory' with
  | blocked => exact absurd rfl directory
  | missing | present => rfl

lemma openLock_eq {d : Disk} (directory : d.directory = .present) (lock : d.lock ≠ .directory) :
    d.openLock = (true, { d with lock := d.lock.opened }) := by
  obtain ⟨directory', manifest, lock', holder⟩ := d
  subst directory
  cases lock' with
  | directory => exact absurd rfl lock
  | absent | file content => rfl

lemma attemptLock_eq {d : Disk} (free : d.holder = none) (holder : LockHolder) :
    d.attemptLock holder = (.taken, { d with holder := some holder }) := by
  rw [attemptLock, tryLock, free]

lemma replaceManifest_eq {d : Disk} (directory : d.directory = .present)
    (manifest : d.manifest ≠ .directory) (text : String) :
    d.replaceManifest text = (true, d.holding text) := by
  obtain ⟨directory', manifest', lock, holder⟩ := d
  subst directory
  cases manifest' with
  | directory => exact absurd rfl manifest
  | absent | file content => rfl

end Disk

namespace Session

variable {d : Disk} {s : Session} {α : Type}

lemma run_acquire_free (directory : d.directory ≠ .blocked) (lock : d.lock ≠ .directory)
    (free : d.holder = none) :
    (run (acquire : SessionT (StateM Disk) Unit) s).run d =
      pure ((.ok (), { s with locked := true }), d.lockedBy s.holder) := by
  have made := Disk.makeDirectory_eq directory
  have opened : Disk.openLock { d with directory := .present } =
      (true, { d with directory := .present, lock := d.lock.opened }) := Disk.openLock_eq rfl lock
  have taken : Disk.attemptLock { d with directory := .present, lock := d.lock.opened } s.holder =
      (.taken, d.lockedBy s.holder) := Disk.attemptLock_eq (d := { d with
        directory := .present, lock := d.lock.opened }) free s.holder
  simp [run_acquire, tryLock, made, opened, taken]

lemma run_whileLocked_free (unlocked : s.locked = false) (directory : d.directory ≠ .blocked)
    (lock : d.lock ≠ .directory) (free : d.holder = none) {body : SessionT (StateM Disk) α}
    {result : Except ManifestError α} {d' : Disk}
    (inside : (run body { s with locked := true }).run (d.lockedBy s.holder) =
      pure ((result, { s with locked := true }), d')) :
    (run (whileLocked body) s).run d = pure ((result, s), d'.unlock s.holder) := by
  have taken := run_acquire_free (s := s) directory lock free
  have same : { s with locked := false } = s := by rw [← unlocked]
  simp [run_whileLocked s unlocked, taken, goOn, run_thenRelease, inside, same]

lemma run_read_eq_whileLocked (unlocked : s.locked = false) :
    run (read : SessionT (StateM Disk) ManifestData) s = run (whileLocked readFile) s := by
  rw [run_read s unlocked, run_whileLocked s unlocked]

/-- Under the lock, writing succeeds and puts the data in the place of the manifest. -/
lemma run_write_locked (locked : s.locked = true) (directory : d.directory = .present)
    (manifest : d.manifest ≠ .directory) (data : ManifestData) :
    (run (write data : SessionT (StateM Disk) Unit) s).run d =
      pure ((.ok (), s), d.holding (textOfData data)) := by
  have replaced := Disk.replaceManifest_eq directory manifest (textOfData data)
  simp [run_write s locked, replaced]

variable {data : ManifestData}

lemma run_readFile_written (fits : data.Fits) (supported : data.Supported)
    (directory : d.directory = .present)
    (manifest : d.manifest = .file (some (textOfData data))) :
    (run (readFile : SessionT (StateM Disk) ManifestData) s).run d =
      pure ((.ok data.raised, s), d) := by
  have found : d.readManifest = .text (textOfData data) := by
    rw [Disk.readManifest, directory, manifest]
  simp [run_readFile, found, dataOfReading, dataOfText_textOfData fits supported]

lemma run_write_read_locked (fits : data.Fits) (supported : data.Supported)
    (locked : s.locked = true) (directory : d.directory = .present)
    (manifest : d.manifest ≠ .directory) :
    (run (do write data; Session.read : SessionT (StateM Disk) ManifestData) s).run d =
      pure ((.ok data.raised, s), d.holding (textOfData data)) := by
  have written := run_write_locked locked directory manifest data
  have found := run_readFile_written (s := s) (d := d.holding (textOfData data)) fits supported
    directory rfl
  simp [run_bind, written, goOn, run_read_locked, locked, found]

/-- A session that reads after the data was written finds them and changes nothing. -/
lemma run_read_written (fits : data.Fits) (supported : data.Supported)
    (unlocked : s.locked = false) (lock : d.lock ≠ .directory) :
    (run (Session.read : SessionT (StateM Disk) ManifestData) s).run
        (d.withManifest (textOfData data)) =
      pure ((.ok data.raised, s), d.withManifest (textOfData data)) := by
  have inside := run_readFile_written (s := { s with locked := true })
    (d := (d.withManifest (textOfData data)).lockedBy s.holder) fits supported rfl rfl
  have present : (d.withManifest (textOfData data)).directory ≠ .blocked :=
    DirectoryState.noConfusion
  rw [run_read_eq_whileLocked unlocked, run_whileLocked_free unlocked present
    (Entry.opened_ne_directory lock) rfl inside, Disk.unlock_withManifest]

/-- What a session does on a disk: its result, its state and the disk afterwards. -/
def runOn (x : SessionT (StateM Disk) α) (s : Session) (d : Disk) :
    (Except ManifestError α × Session) × Disk := StateT.run (run x s) d

end Session

open Session in
/--
Data of a supported version are written under the lock without an error. Whoever
reads them, still under the same lock or afterwards, gets the same data in every
field, except for a previous version, which has become the current one.
-/
theorem written_manifest_reads_back {data : ManifestData} (fits : data.Fits)
    (supported : data.schemaVersion = currentSchemaVersion ∨
      data.schemaVersion = oldestSchemaVersion)
    {s : Session} (unlocked : s.locked = false) {d : Disk} (writable : d.Writable) :
    ∃ (back : ManifestData) (d' : Disk),
      (data.schemaVersion = currentSchemaVersion → back = data) ∧
      (data.schemaVersion = oldestSchemaVersion →
        back = { data with schemaVersion := currentSchemaVersion }) ∧
      runOn (whileLocked (write data)) s d = ((.ok (), s), d') ∧
      runOn (whileLocked (do write data; Session.read)) s d = ((.ok back, s), d') ∧
      ∀ reader : Session, reader.locked = false →
        runOn Session.read reader d' = ((.ok back, reader), d') := by
  obtain ⟨directory, lock, manifest, free⟩ := writable
  have written := run_write_locked (s := { s with locked := true }) (d := d.lockedBy s.holder)
    rfl rfl manifest data
  have both := run_write_read_locked (s := { s with locked := true }) (d := d.lockedBy s.holder)
    fits supported rfl rfl manifest
  refine ⟨data.raised, d.withManifest (textOfData data), ManifestData.raised_of_current,
    fun _ => rfl, ?_, ?_, fun reader unlocked => run_read_written fits supported unlocked lock⟩
  · rw [runOn, run_whileLocked_free unlocked directory lock free written, Disk.unlock_holding]
    rfl
  · rw [runOn, run_whileLocked_free unlocked directory lock free both, Disk.unlock_holding]
    rfl

/-- A layout with a known, an empty and an unknown list of members. -/
def votesLayout : Layout where
  storage :=
    [⟨"Votes", "phase", "t_enum(Phase)", 0, 0, some "Votes.sol:4", none⟩,
      ⟨"Votes", "tally", "t_array(t_struct(Vote)storage)4_storage", 1, 0, none, some "counts"⟩]
  types := ⟨[("t_array(t_struct(Vote)storage)4_storage",
      ⟨"struct Vote[4]", 128, .array "t_struct(Vote)storage" (.fixed 4)⟩),
    ("t_enum(Empty)", ⟨"enum Empty", 1, .enum (some [])⟩),
    ("t_enum(Phase)", ⟨"enum Phase", 1, .enum none⟩),
    ("t_struct(Vote)storage", ⟨"struct Vote", 32, .struct (some [⟨"weight", "t_uint256"⟩])⟩)],
    by decide⟩

/-- Records of the previous version, with an identifier that has no implementation. -/
def votesRecords : ManifestData where
  schemaVersion := oldestSchemaVersion
  admin := some ⟨"0x0A", none⟩
  impls := ⟨[("4c1e", none), ("9b07", some ⟨⟨"0x0B", some "0x77"⟩, votesLayout⟩)], by decide⟩

def votesSession : Session := .onChain .default 5 1

lemma votesRecords_fits : votesRecords.Fits := by
  intro i recorded
  have same : i = ⟨⟨"0x0B", some "0x77"⟩, votesLayout⟩ := by
    simpa [votesRecords, Table.values] using recorded
  subst same
  refine ⟨?_, ?_⟩
  · simp only [votesLayout, List.forall_mem_cons]
    exact ⟨⟨by decide, by decide⟩, ⟨by decide, by decide⟩, List.forall_mem_nil _⟩
  · simp only [votesLayout, Table.values, List.map_cons, List.map_nil, List.forall_mem_cons]
    exact ⟨⟨by decide, (by decide : ArrayLength.Fits (.fixed 4))⟩, ⟨by decide, trivial⟩,
      ⟨by decide, trivial⟩, ⟨by decide, trivial⟩, List.forall_mem_nil _⟩

/-- Written and read with the version raised. -/
theorem votes_records_read_back :
    ∃ d', Session.runOn (Session.whileLocked (Session.write votesRecords)) votesSession Disk.empty =
        ((.ok (), votesSession), d') ∧
      Session.runOn Session.read votesSession d' =
        ((.ok { votesRecords with schemaVersion := "3.1" }, votesSession), d') := by
  obtain ⟨back, d', -, raised, written, -, found⟩ :=
    written_manifest_reads_back votesRecords_fits (.inr rfl) (s := votesSession) rfl
      (d := Disk.empty) ⟨nofun, nofun, nofun, rfl⟩
  obtain rfl := raised rfl
  exact ⟨d', written, found votesSession rfl⟩

end UpgradeSafety
