import UpgradeSafety.Proofs.Manifest.Interleavings

/-!
# Plans carried out

A plan can be carried out in any store, by making its accesses one after the other.
What a session does for a task in a store is its plan carried out there. On a disk
the steps of a session that nobody interrupts lead to where it gets by itself.
-/

namespace UpgradeSafety

open Session (run)

variable {m : Type → Type} [Monad m] [ManifestStore m] {α β : Type}

/-- Makes an access in a store. -/
def Access.make : (what : Access) → m what.Answer
  | .makeDirectory => ManifestStore.makeDirectory
  | .openLock => ManifestStore.openLock
  | .tryLock holder => ManifestStore.tryLock holder
  | .unlock holder => ManifestStore.unlock holder
  | .readManifest => ManifestStore.readManifest
  | .replaceManifest text => ManifestStore.replaceManifest text

lemma Access.make_onDisk (what : Access) (d : Disk) :
    (what.make : StateM Disk what.Answer).run d = what.serve d := by
  cases what <;> rfl

namespace Plan

def carryOut : Plan α → m α
  | done a => pure a
  | access what next => what.make >>= fun answer => (next answer).carryOut

lemma carryOut_bind [LawfulMonad m] (x : Plan α) (f : α → Plan β) :
    (x >>= f).carryOut = (x.carryOut : m α) >>= fun a => (f a).carryOut := by
  induction x with
  | done a => rw [done_bind, carryOut, pure_bind]
  | access what next ih =>
    rw [access_bind, carryOut, carryOut, LawfulMonad.bind_assoc]
    exact congrArg _ (funext ih)

end Plan

namespace Session

open Plan

variable {s : Session}

lemma carryOut_tryLock (holder : LockHolder) (attempts : Nat) :
    (tryLock holder attempts : Plan LockAttempt).carryOut =
      (tryLock holder attempts : m LockAttempt) := by
  induction attempts with
  | zero => rfl
  | succ attempts ih =>
    refine bind_congr fun answer => ?_
    cases answer with
    | taken | refused => rfl
    | held => exact ih

lemma carryOut_goOn {next : α → Session → Plan (Except ManifestError β × Session)}
    {next' : α → Session → m (Except ManifestError β × Session)}
    (same : ∀ a s, (next a s).carryOut = next' a s) (out : Except ManifestError α × Session) :
    (goOn next out).carryOut = goOn next' out := by
  obtain ⟨result, s⟩ := out
  cases result with
  | error e => rfl
  | ok a => exact same a s

variable [LawfulMonad m]

lemma carryOut_acquire :
    (run (acquire : SessionT Plan Unit) s).carryOut = run (acquire : SessionT m Unit) s := by
  rw [run_acquire, run_acquire]
  refine bind_congr fun made => ?_
  cases made with
  | false => rfl
  | true =>
    refine bind_congr fun opened => ?_
    cases opened with
    | false => rfl
    | true =>
      refine (carryOut_bind (tryLock s.holder _) _).trans ?_
      rw [carryOut_tryLock]
      refine bind_congr fun answer => ?_
      cases answer <;> rfl

lemma carryOut_thenRelease {body : SessionT Plan α} {body' : SessionT m α}
    (same : ∀ s, (run body s).carryOut = run body' s) :
    (run (thenRelease body) s).carryOut = run (thenRelease body') s := by
  rw [run_thenRelease, run_thenRelease, carryOut_bind, same]
  refine bind_congr fun out => ?_
  by_cases locked : out.2.locked = true
  · rw [if_pos locked, if_pos locked]
    rfl
  · rw [if_neg locked, if_neg locked]
    rfl

lemma carryOut_readFile :
    (run (readFile : SessionT Plan ManifestData) s).carryOut =
      run (readFile : SessionT m ManifestData) s := by
  rw [run_readFile, run_readFile]
  rfl

lemma carryOut_read :
    (run (read : SessionT Plan ManifestData) s).carryOut =
      run (read : SessionT m ManifestData) s := by
  by_cases locked : s.locked = true
  · rw [run_read_locked s locked, run_read_locked s locked, carryOut_readFile]
  · rw [Bool.not_eq_true] at locked
    rw [run_read s locked, run_read s locked, carryOut_bind, carryOut_acquire]
    exact bind_congr (carryOut_goOn fun _ s => carryOut_thenRelease fun _ => carryOut_readFile)

lemma carryOut_write (data : ManifestData) :
    (run (write data : SessionT Plan Unit) s).carryOut =
      run (write data : SessionT m Unit) s := by
  by_cases locked : s.locked = true
  · rw [run_write s locked, run_write s locked]
    refine bind_congr fun replaced => ?_
    cases replaced <;> rfl
  · rw [Bool.not_eq_true] at locked
    rw [run_write_unlocked s locked, run_write_unlocked s locked]
    rfl

lemma carryOut_whileLocked {body : SessionT Plan α} {body' : SessionT m α}
    (same : ∀ s, (run body s).carryOut = run body' s) :
    (run (whileLocked body) s).carryOut = run (whileLocked body') s := by
  by_cases locked : s.locked = true
  · rw [run_whileLocked_locked s locked, run_whileLocked_locked s locked]
    rfl
  · rw [Bool.not_eq_true] at locked
    rw [run_whileLocked s locked, run_whileLocked s locked, carryOut_bind, carryOut_acquire]
    exact bind_congr (carryOut_goOn fun _ s => carryOut_thenRelease same)

end Session

namespace Task

open Session Plan

variable [LawfulMonad m] {s : Session}

lemma carryOut_revise (modify : ManifestData → Except ManifestError ManifestData) :
    (run (revise modify : SessionT Plan ManifestData) s).carryOut =
      run (revise modify : SessionT m ManifestData) s := by
  rw [revise, revise, run_bind, run_bind, carryOut_bind, carryOut_read]
  refine bind_congr (carryOut_goOn fun before s => ?_)
  rw [run_outcome_bind, run_outcome_bind]
  refine carryOut_goOn (fun data s => ?_) _
  rw [run_bind, run_bind, carryOut_bind, carryOut_write]
  exact bind_congr (carryOut_goOn fun _ _ => rfl)

/-- What a session does for a task in a store is its plan carried out there. -/
theorem carryOut_plan (task : Task) :
    (task.plan s).carryOut = run (task.body : SessionT m ManifestData) s := by
  cases task with
  | read => exact carryOut_read
  | update modify => exact carryOut_whileLocked fun s => carryOut_revise modify

end Task

section

variable {w w' : World} {past : Past} {who : LockHolder} {task : Task}

lemma Reaches.carriedOut {plan : Plan (Except ManifestError ManifestData × Session)}
    (before : Reaches w past w') (busy : w'.activity who = .doing task plan) :
    ∃ past', Reaches w past' ⟨((plan.carryOut : StateM Disk _).run w'.disk).2,
      Function.update w'.activity who
        (.doing task (.done ((plan.carryOut : StateM Disk _).run w'.disk).1))⟩ := by
  induction plan generalizing past w' with
  | done out =>
    refine ⟨past, ?_⟩
    have same : Function.update w'.activity who (.doing task (.done out)) = w'.activity := by
      rw [← busy, Function.update_eq_self]
    change Reaches w past ⟨w'.disk, Function.update w'.activity who (.doing task (.done out))⟩
    rw [same]
    exact before
  | access what next ih =>
    have further := ih (what.serve w'.disk).1 (before.step (.access busy .served))
      (Function.update_self who _ _)
    rw [Function.update_idem] at further
    rw [Plan.carryOut, StateT.run_bind, what.make_onDisk]
    exact further

/-- A session that nobody interrupts gets to where it gets on the disk by itself. -/
theorem Reaches.uninterrupted {s : Session} (before : Reaches w past w')
    (idle : w'.activity who = .idle s) (task : Task) :
    let out := (run (task.body : SessionT (StateM Disk) ManifestData) s).run w'.disk
    ∃ past', Reaches w ((who, .ended out.1.1) :: past')
      ⟨out.2, Function.update w'.activity who (.idle out.1.2)⟩ := by
  intro out
  obtain ⟨past', reaches⟩ :=
    (before.step (.begin task idle)).carriedOut (Function.update_self who _ _)
  rw [task.carryOut_plan, Function.update_idem] at reaches
  have finished := reaches.step (.finish (Function.update_self who _ _))
  rw [Function.update_idem] at finished
  exact ⟨past', finished⟩

end

end UpgradeSafety
