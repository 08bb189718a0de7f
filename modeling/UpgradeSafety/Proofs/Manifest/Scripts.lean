import UpgradeSafety.Proofs.Manifest.CarriedOut
import UpgradeSafety.Proofs.Manifest.LockAccesses

/-!
# Scripts

Any way to use a session, with locked runs inside one another and whatever is made of the results
of calls. A session is after a script as it was before, and in a locked run it has the lock all
the time.
-/

namespace UpgradeSafety

open Session (run goOn dataOfReading)

/-- How a session is used, from one call to the next; what is done next depends on the result. -/
inductive Script : Type → Type 1 where
  | done {α : Type} (result : Except ManifestError α) : Script α
  | isLocked : Script Bool
  | read : Script ManifestData
  | write (data : ManifestData) : Script Unit
  | admin : Script (Option Deployment)
  | implementationAt (address : String) : Script Implementation
  | lockedRun {α : Type} (body : Script α) : Script α
  | andThen {α β : Type} (first : Script β) (next : Except ManifestError β → Script α) : Script α

namespace Script

/-- What a session does for a script. -/
def perform {m : Type → Type} [Monad m] [ManifestStore m] {α : Type} : Script α → SessionT m α
  | done result => Task.outcome result
  | isLocked => return (← get).locked
  | read => Session.read
  | write data => Session.write data
  | admin => Session.admin
  | implementationAt address => Session.implementationAt address
  | lockedRun body => Session.whileLocked body.perform
  | andThen first next => ExceptT.mk do (next (← first.perform.run)).perform.run

variable {α β : Type} {s : Session}

/-- The accesses of a session for a script, its result and its state afterwards. -/
def plan (script : Script α) (s : Session) : Plan (Except ManifestError α × Session) :=
  run script.perform s

lemma plan_read : read.plan s = run Session.read s := rfl

lemma plan_write (data : ManifestData) : (write data).plan s = run (Session.write data) s := rfl

lemma plan_lockedRun (body : Script α) :
    (lockedRun body).plan s = run (Session.whileLocked body.perform) s := rfl

lemma plan_andThen (first : Script β) (next : Except ManifestError β → Script α) :
    (andThen first next).plan s = first.plan s >>= fun out => (next out.1).plan out.2 := rfl

lemma plan_write_unlocked (unlocked : s.locked = false) (data : ManifestData) :
    (write data).plan s = .done (.error .notLocked, s) :=
  Session.run_write_unlocked s unlocked data

lemma plan_lockedRun_locked (locked : s.locked = true) (body : Script α) :
    (lockedRun body).plan s = .done (.error .alreadyLocked, s) :=
  Session.run_whileLocked_locked s locked body.perform

lemma plan_admin : admin.plan s =
    read.plan s >>= fun out => .done (out.1.map ManifestData.admin, out.2) := by
  change run Session.admin s = _
  rw [Session.admin, Session.run_bind]
  congr 1
  funext out
  obtain ⟨result, s'⟩ := out
  cases result <;> rfl

/-- The implementation that some data record for an address. -/
def implementationIn (address : String) (data : ManifestData) :
    Except ManifestError Implementation :=
  match data.implementationAt? address with
  | some i => .ok i
  | none => .error (.deploymentNotFound address)

lemma plan_implementationAt (address : String) : (implementationAt address).plan s =
    read.plan s >>= fun out => .done (out.1.bind (implementationIn address), out.2) := by
  change run (Session.implementationAt address) s = _
  rw [Session.implementationAt, Session.run_bind]
  congr 1
  funext out
  obtain ⟨result, s'⟩ := out
  cases result with
  | error e => rfl
  | ok data =>
    change run _ s' = Plan.done (implementationIn address data, s')
    rw [implementationIn]
    cases data.implementationAt? address <;> rfl

lemma run_readFile_eq : run (Session.readFile : SessionT Plan ManifestData) s =
    Plan.ask .readManifest >>= fun reading => .done (dataOfReading s.file reading, s) :=
  Session.run_readFile s

lemma plan_read_locked (locked : s.locked = true) : read.plan s =
    Plan.ask .readManifest >>= fun reading => .done (dataOfReading s.file reading, s) :=
  (Session.run_read_locked s locked).trans run_readFile_eq

lemma readFile_keeps {trace : List Exchange} {out : Except ManifestError ManifestData × Session}
    (came : (run (Session.readFile : SessionT Plan ManifestData) s).Yields trace out) :
    out.2 = s := by
  rw [run_readFile_eq] at came
  obtain ⟨reading, rest, rfl, done⟩ := Plan.yields_ask_iff.1 came
  cases done
  rfl

/-- Reading without the lock is a locked run of its own. -/
lemma read_underLock (unlocked : s.locked = false) {trace : List Exchange}
    {out : Except ManifestError ManifestData × Session} (came : (read.plan s).Yields trace out) :
    s.UnderLock (run Session.readFile { s with locked := true }) trace out := by
  rw [plan_read, Session.run_read s unlocked] at came
  exact Session.underLock_of_yields unlocked (fun trace out => readFile_keeps) came

lemma read_keeps {trace : List Exchange} {out : Except ManifestError ManifestData × Session}
    (came : (read.plan s).Yields trace out) : out.2 = s := by
  by_cases locked : s.locked = true
  · rw [plan_read, Session.run_read_locked s locked] at came
    exact readFile_keeps came
  · cases read_underLock (Bool.not_eq_true _ ▸ locked) came <;> rfl

lemma write_keeps {data : ManifestData} {trace : List Exchange}
    {out : Except ManifestError Unit × Session} (came : ((write data).plan s).Yields trace out) :
    out.2 = s := by
  by_cases locked : s.locked = true
  · rw [plan_write, Session.run_write s locked] at came
    obtain ⟨replaced, rest, rfl, done⟩ := Plan.yields_ask_iff.1 came
    cases replaced <;> cases done <;> rfl
  · rw [plan_write_unlocked (Bool.not_eq_true _ ▸ locked)] at came
    cases came
    rfl

/-- A session is after a script as it was before. -/
lemma keeps (script : Script α) {s : Session} {trace : List Exchange}
    {out : Except ManifestError α × Session} (came : (script.plan s).Yields trace out) :
    out.2 = s := by
  induction script generalizing s trace with
  | done result =>
    cases came
    rfl
  | isLocked =>
    cases came
    rfl
  | read => exact read_keeps came
  | write data => exact write_keeps came
  | admin =>
    rw [plan_admin] at came
    obtain ⟨first, second, out, rfl, reads, done⟩ := Plan.yields_bind_iff.1 came
    cases done
    exact read_keeps reads
  | implementationAt address =>
    rw [plan_implementationAt] at came
    obtain ⟨first, second, out, rfl, reads, done⟩ := Plan.yields_bind_iff.1 came
    cases done
    exact read_keeps reads
  | lockedRun body ih =>
    by_cases locked : s.locked = true
    · rw [plan_lockedRun_locked locked] at came
      cases came
      rfl
    · have unlocked : s.locked = false := Bool.not_eq_true _ ▸ locked
      rw [plan_lockedRun, Session.run_whileLocked s unlocked] at came
      cases Session.underLock_of_yields unlocked (fun trace out => ih) came <;> rfl
  | andThen first next ihFirst ihNext =>
    rw [plan_andThen] at came
    obtain ⟨one, two, out, rfl, begun, further⟩ := Plan.yields_bind_iff.1 came
    exact (ihNext _ further).trans (ihFirst begun)

lemma lockedRun_underLock (unlocked : s.locked = false) {body : Script α} {trace : List Exchange}
    {out : Except ManifestError α × Session} (came : ((lockedRun body).plan s).Yields trace out) :
    s.UnderLock (body.plan { s with locked := true }) trace out := by
  rw [plan_lockedRun, Session.run_whileLocked s unlocked] at came
  exact Session.underLock_of_yields unlocked (fun trace out => keeps body) came

/-- What a session does for a script in a store is its plan carried out there. -/
lemma carryOut_plan {m : Type → Type} [Monad m] [LawfulMonad m] [ManifestStore m]
    (script : Script α) (s : Session) :
    (script.plan s).carryOut = run (script.perform : SessionT m α) s := by
  induction script generalizing s with
  | done result => rfl
  | isLocked => exact (Session.run_get_bind (m := m) s fun s => pure s.locked).symm
  | read => exact Session.carryOut_read
  | write data => exact Session.carryOut_write data
  | admin =>
    change Plan.carryOut (run Session.admin s) = run Session.admin s
    rw [Session.admin, Session.admin, Session.run_bind, Session.run_bind,
      Plan.carryOut_bind, Session.carryOut_read]
    exact bind_congr (Session.carryOut_goOn fun _ _ => rfl)
  | implementationAt address =>
    change Plan.carryOut (run (Session.implementationAt address) s) =
      run (Session.implementationAt address) s
    rw [Session.implementationAt, Session.implementationAt,
      Session.run_bind, Session.run_bind, Plan.carryOut_bind, Session.carryOut_read]
    refine bind_congr (Session.carryOut_goOn fun data _ => ?_)
    cases data.implementationAt? address <;> rfl
  | lockedRun body ih => exact Session.carryOut_whileLocked ih
  | andThen first next ihFirst ihNext =>
    rw [plan_andThen, Plan.carryOut_bind, ihFirst]
    exact bind_congr fun out => ihNext out.1 out.2

/-! ### The lock during a script -/

/-- A script in which it is known whether the session has the lock. -/
def told {α : Type} (locked : Bool) : Script α → Script α
  | done result => done result
  | isLocked => done (.ok locked)
  | read => read
  | write data => write data
  | admin => admin
  | implementationAt address => implementationAt address
  | lockedRun body => lockedRun (body.told true)
  | andThen first next => andThen (first.told locked) fun result => (next result).told locked

/-- The lock is there all through a locked run, and otherwise just if it was there before. -/
lemma plan_told (script : Script α) (s : Session) :
    (script.told s.locked).plan s = script.plan s := by
  induction script generalizing s with
  | lockedRun body ih =>
    by_cases locked : s.locked = true
    · rw [told, plan_lockedRun_locked locked, plan_lockedRun_locked locked]
    · have unlocked : s.locked = false := Bool.not_eq_true _ ▸ locked
      rw [told, plan_lockedRun, plan_lockedRun, Session.run_whileLocked s unlocked,
        Session.run_whileLocked s unlocked]
      apply Session.acquire_bind_congr
      have inside : run (body.told true).perform { s with locked := true } =
        run body.perform { s with locked := true } := ih { s with locked := true }
      rw [Session.run_thenRelease, Session.run_thenRelease, inside]
  | andThen first next ihFirst ihNext =>
    rw [told, plan_andThen, plan_andThen, ihFirst]
    refine Plan.bind_congr_yields fun trace out came => ?_
    have kept := keeps first came
    rw [← ihNext, kept]
  | _ => rfl

/-- A session that has the lock does nothing else than reading and replacing the manifest. -/
lemma onManifest_of_locked (script : Script α) (locked : s.locked = true) {trace : List Exchange}
    {out : Except ManifestError α × Session} (came : (script.plan s).Yields trace out) :
    ∀ e ∈ trace, e.what.onManifest = true := by
  have reads {trace : List Exchange} {out : Except ManifestError ManifestData × Session}
      (came : (read.plan s).Yields trace out) : ∀ e ∈ trace, e.what.onManifest = true := by
    rw [plan_read_locked locked] at came
    obtain ⟨reading, rest, rfl, done⟩ := Plan.yields_ask_iff.1 came
    cases done
    exact List.forall_mem_singleton.2 rfl
  induction script generalizing s trace with
  | done result | isLocked =>
    cases came
    exact nofun
  | read => exact reads came
  | write data =>
    rw [plan_write, Session.run_write s locked] at came
    obtain ⟨replaced, rest, rfl, done⟩ := Plan.yields_ask_iff.1 came
    cases replaced <;> cases done <;> exact List.forall_mem_singleton.2 rfl
  | admin =>
    rw [plan_admin] at came
    obtain ⟨first, second, out, rfl, found, done⟩ := Plan.yields_bind_iff.1 came
    cases done
    rw [List.append_nil]
    exact reads found
  | implementationAt address =>
    rw [plan_implementationAt] at came
    obtain ⟨first, second, out, rfl, found, done⟩ := Plan.yields_bind_iff.1 came
    cases done
    rw [List.append_nil]
    exact reads found
  | lockedRun body =>
    rw [plan_lockedRun_locked locked] at came
    cases came
    exact nofun
  | andThen first next ihFirst ihNext =>
    rw [plan_andThen] at came
    obtain ⟨one, two, out, rfl, begun, further⟩ := Plan.yields_bind_iff.1 came
    have kept := keeps first begun
    exact List.forall_mem_append.2 ⟨ihFirst locked begun reads,
      ihNext _ (kept ▸ locked) further (kept ▸ reads)⟩

end Script

end UpgradeSafety
