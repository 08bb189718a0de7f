import Mathlib.Tactic.Lemma
import UpgradeSafety.Manifest.Session

/-!
# Sessions step by step

What a session does from a given state on, for every way of accessing the store:
one equation for each of its functions, in which only accesses are left.
-/

namespace UpgradeSafety

namespace Session

/-- The data that the manifest at a path records, by what reading it finds. -/
def dataOfReading (path : String) : Reading → Except ManifestError ManifestData
  | .absent => .ok .empty
  | .unreadable => .error (.inaccessible path)
  | .text content => dataOfText path content

variable {m : Type → Type} [Monad m] {α β : Type}

/-- What a session does from a state on, its result and the state that it ends in. -/
def run (x : SessionT m α) (s : Session) : m (Except ManifestError α × Session) :=
  StateT.run (ExceptT.run x) s

/-- Goes on with the result of a run, unless the run failed. -/
def goOn (next : α → Session → m (Except ManifestError β × Session)) :
    Except ManifestError α × Session → m (Except ManifestError β × Session)
  | (.ok a, s) => next a s
  | (.error e, s) => pure (.error e, s)

section

variable (s : Session)

@[simp] lemma run_pure (a : α) : run (pure a : SessionT m α) s = pure (.ok a, s) := rfl

@[simp] lemma run_throw (e : ManifestError) :
    run (throw e : SessionT m α) s = pure (.error e, s) := rfl

omit [Monad m] in
lemma run_ite (c : Prop) [Decidable c] (x y : SessionT m α) :
    run (if c then x else y) s = if c then run x s else run y s := by
  split <;> rfl

lemma run_bind (x : SessionT m α) (next : α → SessionT m β) :
    run (x >>= next) s = run x s >>= goOn fun a => run (next a) := by
  change run x s >>= _ = _
  congr 1
  funext out
  obtain ⟨result, s'⟩ := out
  cases result <;> rfl

variable [LawfulMonad m]

@[simp] lemma run_get_bind (next : Session → SessionT m β) :
    run (get >>= next) s = run (next s) s := by
  have state : run (get : SessionT m Session) s = pure (.ok s, s) := by
    change StateT.run (Except.ok <$> (get : StateT Session m Session)) s = _
    simp
  rw [run_bind, state, pure_bind, goOn]

@[simp] lemma run_set (s' : Session) :
    run (set s' : SessionT m PUnit) s = pure (.ok ⟨⟩, s') := by
  change StateT.run (Except.ok <$> (set s' : StateT Session m PUnit)) s = _
  simp

@[simp] lemma run_lift_bind (x : m α) (next : α → SessionT m β) :
    run ((liftM x : SessionT m α) >>= next) s = x >>= fun a => run (next a) s := by
  have lifted : run (liftM x : SessionT m α) s = x >>= fun a => pure (.ok a, s) := by
    change StateT.run (Except.ok <$> (StateT.lift x : StateT Session m α)) s = _
    simp
  rw [run_bind, lifted, bind_assoc]
  simp [goOn]

variable [ManifestStore m]

lemma run_acquire :
    run (acquire : SessionT m Unit) s = do
      if !(← (ManifestStore.makeDirectory : m Bool)) then
        return (.error (.inaccessible s.config.directory), s)
      else if !(← (ManifestStore.openLock : m Bool)) then
        return (.error (.inaccessible s.lockFile), s)
      else
        match ← (tryLock s.holder (s.config.lockRetries + 1) : m LockAttempt) with
        | .taken => return (.ok (), { s with locked := true })
        | .held =>
          return (.error (.lockContention s.lockFile (s.config.lockRetries + 1)), s)
        | .refused => return (.error (.inaccessible s.lockFile), s) := by
  simp only [acquire, ExceptT.bind_throw, run_get_bind, run_lift_bind, run_ite, run_throw]
  refine bind_congr fun made => ?_
  split
  · rfl
  refine bind_congr fun opened => ?_
  split
  · rfl
  refine bind_congr fun answer => ?_
  cases answer with
  | taken => exact run_set s _
  | held | refused => rfl

lemma run_thenRelease (body : SessionT m α) :
    run (thenRelease body) s = do
      let out ← run body s
      if out.2.locked then
        (ManifestStore.unlock out.2.holder : m Unit)
        return (out.1, { out.2 with locked := false })
      else return out := by
  simp [run, thenRelease, release]
  congr 1
  funext out
  by_cases locked : out.2.locked = true
  · simp [locked]
  · simp [locked]

lemma run_readFile :
    run (readFile : SessionT m ManifestData) s = do
      return (dataOfReading s.file (← (ManifestStore.readManifest : m Reading)), s) := by
  simp only [readFile, run_get_bind, run_lift_bind]
  congr 1
  funext reading
  cases reading <;> rfl

lemma run_read_locked (locked : s.locked = true) :
    run (read : SessionT m ManifestData) s = run readFile s := by
  simp [read, locked]

lemma run_read (unlocked : s.locked = false) :
    run (read : SessionT m ManifestData) s =
      run acquire s >>= goOn fun _ => run (thenRelease readFile) := by
  simp [read, unlocked, run_bind s acquire]

lemma run_write (locked : s.locked = true) (data : ManifestData) :
    run (write data : SessionT m Unit) s = do
      if !(← (ManifestStore.replaceManifest (textOfData data) : m Bool)) then
        return (.error (.inaccessible s.file), s)
      else return (.ok (), s) := by
  simp [write, run_ite, locked]

lemma run_write_unlocked (unlocked : s.locked = false) (data : ManifestData) :
    run (write data : SessionT m Unit) s = pure (.error .notLocked, s) := by
  simp [write, unlocked]

lemma run_whileLocked (unlocked : s.locked = false) (body : SessionT m α) :
    run (whileLocked body) s = run acquire s >>= goOn fun _ => run (thenRelease body) := by
  simp [whileLocked, unlocked, run_bind s acquire]

lemma run_whileLocked_locked (locked : s.locked = true) (body : SessionT m α) :
    run (whileLocked body) s = pure (.error .alreadyLocked, s) := by
  simp [whileLocked, locked]

end

end Session

end UpgradeSafety
