import UpgradeSafety.Proofs.Manifest.Scripts
import UpgradeSafety.Proofs.Manifest.SupportedVersions

/-!
# Kept locks

A call reports that the lock is held by another holder just if all its attempts have found it so,
and then it does nothing to the manifest. With that, all that a session does about its lock is
stated for every use of it and whatever the answers to its accesses are.
-/

namespace UpgradeSafety

open Session (run dataOfReading Contended)

namespace Script

variable {α β : Type} {s : Session}

/-- A script in a locked run does not report contention unless one of its calls did. -/
def Honest {α : Type} : Script α → Prop
  | done result => ¬ Contended result
  | andThen first next => first.Honest ∧ ∀ result, ¬ Contended result → (next result).Honest
  | _ => True

/-- A single call; a locked run is one of an honest script. -/
def Call {α : Type} : Script α → Prop
  | done _ | andThen _ _ => False
  | lockedRun body => body.Honest
  | _ => True

lemma dataOfReading_not_contended {path : String} {reading : Reading} :
    ¬ Contended (dataOfReading path reading) := by
  rintro ⟨path', attempts, read⟩
  cases reading with
  | absent | unreadable => cases read
  | text content =>
    rw [dataOfReading, Session.dataOfText] at read
    split at read
    · cases read
    · next document _ =>
      split at read
      · next e refused =>
        cases read
        exact Migration.validate_not_contended refused
      · split at read <;> cases read

lemma read_not_contended {trace : List Exchange} {out : Except ManifestError ManifestData × Session}
    (came : (run (Session.readFile : SessionT Plan ManifestData) s).Yields trace out) :
    ¬ Contended out.1 := by
  rw [run_readFile_eq] at came
  obtain ⟨reading, rest, rfl, done⟩ := Plan.yields_ask_iff.1 came
  cases done
  exact dataOfReading_not_contended

lemma write_not_contended {data : ManifestData} {trace : List Exchange}
    {out : Except ManifestError Unit × Session} (came : ((write data).plan s).Yields trace out) :
    ¬ Contended out.1 := by
  rintro ⟨path, attempts, contended⟩
  by_cases locked : s.locked = true
  · rw [plan_write, Session.run_write s locked] at came
    obtain ⟨replaced, rest, rfl, done⟩ := Plan.yields_ask_iff.1 came
    cases replaced <;> cases done <;> cases contended
  · rw [plan_write_unlocked (Bool.not_eq_true _ ▸ locked)] at came
    cases came
    cases contended

section

variable {path : String} {attempts : Nat}

lemma map_eq_contention_iff {f : α → β} {result : Except ManifestError α} :
    result.map f = .error (.lockContention path attempts) ↔
      result = .error (.lockContention path attempts) := by
  cases result <;> simp [Except.map]

lemma bind_eq_contention_iff {address : String} {result : Except ManifestError ManifestData} :
    result.bind (implementationIn address) = .error (.lockContention path attempts) ↔
      result = .error (.lockContention path attempts) := by
  cases result with
  | error e => simp [Except.bind]
  | ok data =>
    rw [Except.bind, implementationIn]
    split <;> simp

end

/-- Under the lock no call reports contention. -/
lemma Honest.not_contended {script : Script α} (honest : script.Honest) {s : Session}
    (locked : s.locked = true) {trace : List Exchange} {out : Except ManifestError α × Session}
    (came : (script.plan s).Yields trace out) : ¬ Contended out.1 := by
  have reads {trace : List Exchange} {out : Except ManifestError ManifestData × Session}
      (came : (read.plan s).Yields trace out) : ¬ Contended out.1 := by
    rw [plan_read, Session.run_read_locked s locked] at came
    exact read_not_contended came
  induction script generalizing s trace with
  | done result =>
    cases came
    exact honest
  | isLocked =>
    cases came
    rintro ⟨_, _, ⟨⟩⟩
  | read => exact reads came
  | write data => exact write_not_contended came
  | admin =>
    rw [plan_admin] at came
    obtain ⟨first, second, out, rfl, found, done⟩ := Plan.yields_bind_iff.1 came
    cases done
    exact fun ⟨path, attempts, tells⟩ => reads found ⟨path, attempts, map_eq_contention_iff.1 tells⟩
  | implementationAt address =>
    rw [plan_implementationAt] at came
    obtain ⟨first, second, out, rfl, found, done⟩ := Plan.yields_bind_iff.1 came
    cases done
    exact fun ⟨path, attempts, tells⟩ =>
      reads found ⟨path, attempts, bind_eq_contention_iff.1 tells⟩
  | lockedRun body =>
    rw [plan_lockedRun_locked locked] at came
    cases came
    rintro ⟨_, _, ⟨⟩⟩
  | andThen first next ihFirst ihNext =>
    rw [plan_andThen] at came
    obtain ⟨one, two, out, rfl, begun, further⟩ := Plan.yields_bind_iff.1 came
    have kept := keeps first begun
    exact ihNext _ (honest.2 _ (ihFirst honest.1 locked begun reads)) (kept ▸ locked) further
      (kept ▸ reads)

lemma Call.honest {call : Script α} (single : call.Call) : call.Honest := by
  cases call <;> trivial

/-- A call reports contention just if all attempts have found the lock held. -/
lemma Call.reports {call : Script α} (single : call.Call) {trace : List Exchange}
    {out : Except ManifestError α × Session} (came : (call.plan s).Yields trace out) :
    s.Reports trace out.1 := by
  by_cases locked : s.locked = true
  · refine Session.reports_of_not (single.honest.not_contended locked came) ?_
    rintro rfl
    have first := onManifest_of_locked call locked came ⟨.makeDirectory, true⟩ List.mem_cons_self
    cases first
  have unlocked : s.locked = false := Bool.not_eq_true _ ▸ locked
  have reads {trace : List Exchange} {out : Except ManifestError ManifestData × Session}
      (came : (read.plan s).Yields trace out) : s.Reports trace out.1 :=
    (read_underLock unlocked came).reports fun trace out => read_not_contended
  cases call with
  | done result | andThen first next => exact absurd single id
  | isLocked =>
    cases came
    exact Session.reports_of_not (by rintro ⟨_, _, ⟨⟩⟩) nofun
  | read => exact reads came
  | write data =>
    refine Session.reports_of_not (write_not_contended came) ?_
    rw [plan_write_unlocked unlocked] at came
    cases came
    nofun
  | admin =>
    rw [plan_admin] at came
    obtain ⟨first, second, out, rfl, found, done⟩ := Plan.yields_bind_iff.1 came
    cases done
    rw [List.append_nil]
    exact fun path attempts => map_eq_contention_iff.trans (reads found path attempts)
  | implementationAt address =>
    rw [plan_implementationAt] at came
    obtain ⟨first, second, out, rfl, found, done⟩ := Plan.yields_bind_iff.1 came
    cases done
    rw [List.append_nil]
    exact fun path attempts => bind_eq_contention_iff.trans (reads found path attempts)
  | lockedRun body =>
    exact (lockedRun_underLock unlocked came).reports fun trace out came =>
      Honest.not_contended single rfl came

lemma lockedRun_contended (unlocked : s.locked = false) (body : Script α) :
    ((lockedRun body).plan s).Yields s.contended
      (.error (.lockContention s.lockFile (s.config.lockRetries + 1)), s) := by
  rw [plan_lockedRun, Session.run_whileLocked s unlocked]
  exact Plan.yields_bind_iff.2
    ⟨_, [], _, (List.append_nil _).symm, s.acquire_yields_contended, .done _⟩

end Script

/-! ## All scripts -/

/-- What a session does about its lock, for every use of it and all answers to its accesses. -/
structure Session.KeepsLock (s : Session) : Prop where
  /-- What is said of accesses and their answers is so in every store. -/
  carriedOut : ∀ (m : Type → Type) [Monad m] [LawfulMonad m] [ManifestStore m] (α : Type)
    (script : Script α), (script.plan s).carryOut = run (script.perform : SessionT m α) s
  /-- Every script ends, whatever the answers are. -/
  ends : ∀ (α : Type) (script : Script α) (answering : Plan.Answering),
    ∃ trace out, (script.plan s).Yields trace out ∧ Plan.Answers answering trace
  /-- After a script, which may be a single call, the session has the lock if it had it before. -/
  restored : ∀ (α : Type) (script : Script α) (trace : List Exchange)
    (out : Except ManifestError α × Session), (script.plan s).Yields trace out → out.2 = s
  /-- So it is after each call of a script, and in a locked run the session has the lock. -/
  told : ∀ (α : Type) (script : Script α), script.plan s = (script.told s.locked).plan s
  /-- A locked run takes the lock, is carried out with it and gives it back. -/
  lockedRun : ∀ (α : Type) (body : Script α), s.locked = false → ∀ (trace : List Exchange)
    (out : Except ManifestError α × Session), ((Script.lockedRun body).plan s).Yields trace out →
      s.UnderLock (body.plan { s with locked := true }) trace out
  /-- Meanwhile the lock is not touched. -/
  held : ∀ (α : Type) (script : Script α), s.locked = true → ∀ (trace : List Exchange)
    (out : Except ManifestError α × Session), (script.plan s).Yields trace out →
      ∀ e ∈ trace, e.what.onManifest = true
  /-- There is no locked run in a locked run. -/
  nested : ∀ (α : Type) (body : Script α), s.locked = true →
    (Script.lockedRun body).plan s = .done (.error .alreadyLocked, s)
  /-- Nothing is written without the lock. -/
  unwritten : ∀ data : ManifestData, s.locked = false →
    (Script.write data).plan s = .done (.error .notLocked, s)
  /-- A call reports contention just if all attempts found the lock held. -/
  contention : ∀ (α : Type) (call : Script α), call.Call → ∀ (trace : List Exchange)
    (out : Except ManifestError α × Session), (call.plan s).Yields trace out →
      ∀ path attempts, out.1 = .error (.lockContention path attempts) ↔
        trace = s.contended ∧ path = s.lockFile ∧ attempts = s.config.lockRetries + 1
  /-- Then the manifest is not touched. -/
  untouched : ∀ e ∈ s.contended, e.what.onManifest = false
  /-- Then a locked run ends before anything is done in it. -/
  unrun : ∀ (α : Type) (body : Script α), s.locked = false →
    ((Script.lockedRun body).plan s).Yields s.contended
      (.error (.lockContention s.lockFile (s.config.lockRetries + 1)), s)

/-- Every session leaves its lock as it was, whatever it is used for. -/
theorem lock_kept (s : Session) : s.KeepsLock where
  carriedOut _ _ _ _ _ script := script.carryOut_plan s
  ends _ script answering := (script.plan s).exists_yields answering
  restored _ script _ _ came := script.keeps came
  told _ script := (script.plan_told s).symm
  lockedRun _ _ unlocked _ _ came := Script.lockedRun_underLock unlocked came
  held _ script locked _ _ came := script.onManifest_of_locked locked came
  nested _ body locked := Script.plan_lockedRun_locked locked body
  unwritten data unlocked := Script.plan_write_unlocked unlocked data
  contention _ _ single _ _ came := single.reports came
  untouched _ mem := Session.contended_elsewhere mem
  unrun _ body unlocked := Script.lockedRun_contended unlocked body

/-- A session that tries twice to get the lock. -/
def rival : Session := .onChain ⟨"up", 1, 0⟩ 5 7

/-- The rival gives up after it has found the lock held twice, and does not nest locked runs. -/
theorem rival_lock_kept :
    ((Script.lockedRun .read).plan rival).Yields
      [⟨.makeDirectory, true⟩, ⟨.openLock, true⟩, ⟨.tryLock 7, LockAttempt.held⟩,
        ⟨.tryLock 7, LockAttempt.held⟩]
      (.error (.lockContention "up/goerli.json.lock" 2), rival) ∧
    (Script.lockedRun .read).plan { rival with locked := true } =
      .done (.error .alreadyLocked, { rival with locked := true }) := by
  have path : rival.lockFile = "up/goerli.json.lock" := by decide
  have waited := (lock_kept rival).unrun _ .read rfl
  rw [path] at waited
  exact ⟨waited, (lock_kept { rival with locked := true }).nested _ .read rfl⟩

end UpgradeSafety
