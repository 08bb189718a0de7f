import UpgradeSafety.Proofs.Manifest.Plans
import UpgradeSafety.Proofs.Manifest.SessionRuns

/-!
# What a session does with its turn

A session is asked to read the manifest or to change it under the lock. Whatever
the answers to its accesses are, it reads and writes only while it has the lock,
it writes at most once, and what it writes is made from what it read.
-/

namespace UpgradeSafety

open Session (run goOn dataOfReading textOfData)

/-- What a session is asked to do. -/
inductive Task where
  | read
  /-- To read the manifest, make other data of it and write these, all in one locked run. -/
  | update (modify : ManifestData → Except ManifestError ManifestData)

namespace Task

/-- A result by itself. -/
def outcome {m : Type → Type} [Monad m] {α : Type} (result : Except ManifestError α) :
    SessionT m α := ExceptT.mk (pure result)

/-- Reads the manifest, writes what is made of it and returns that. -/
def revise {m : Type → Type} [Monad m] [ManifestStore m]
    (modify : ManifestData → Except ManifestError ManifestData) : SessionT m ManifestData := do
  let data ← outcome (modify (← Session.read))
  Session.write data
  return data

def body {m : Type → Type} [Monad m] [ManifestStore m] : Task → SessionT m ManifestData
  | .read => Session.read
  | .update modify => Session.whileLocked (revise modify)

/-- The accesses that a session makes for a task, its result and its state afterwards. -/
def plan (task : Task) (s : Session) : Plan (Except ManifestError ManifestData × Session) :=
  run task.body s

end Task

/-- How far a session has come with a task, as far as its accesses tell. -/
structure Progress where
  locked : Bool
  /-- What reading the manifest found, if it was read. -/
  found : Option Reading
  /-- The text in the place of the manifest, if it was replaced. -/
  wrote : Option String

namespace Progress

def start : Progress := ⟨false, none, none⟩

def holding : Progress := ⟨true, none, none⟩

def after (p : Progress) : (what : Access) → what.Answer → Progress
  | .tryLock _, .taken => { p with locked := true }
  | .unlock _, _ => { p with locked := false }
  | .readManifest, reading => { p with found := some reading }
  | .replaceManifest text, true => { p with wrote := some text }
  | _, _ => p

end Progress

/-- The accesses that a session may make for a task, by how far it has come. -/
inductive Task.May (path : String) (who : LockHolder) (task : Task) (p : Progress) :
    Access → Prop where
  | makeDirectory : May path who task p .makeDirectory
  | openLock : May path who task p .openLock
  | tryLock (fresh : p = .start) : May path who task p (.tryLock who)
  | unlock (locked : p.locked = true) : May path who task p (.unlock who)
  | readManifest (locked : p.locked = true) (unwritten : p.wrote = none) :
      May path who task p .readManifest
  | replaceManifest {modify : ManifestData → Except ManifestError ManifestData} {reading : Reading}
      {data data' : ManifestData} (update : task = .update modify) (locked : p.locked = true)
      (unwritten : p.wrote = none) (found : p.found = some reading)
      (read : dataOfReading path reading = .ok data) (modified : modify data = .ok data') :
      May path who task p (.replaceManifest (textOfData data'))

/-- What a session that found some data wrote and returned. -/
def Task.Makes (p : Progress) (before data : ManifestData) : Task → Prop
  | .read => p.wrote = none ∧ data = before
  | .update modify => p.wrote = some (textOfData data) ∧ modify before = .ok data

/-- What a result says about the accesses that were made. -/
def Task.Concludes (path : String) (task : Task) (p : Progress) :
    Except ManifestError ManifestData → Prop
  | .error _ => p.wrote = none
  | .ok data => ∃ reading before,
      p.found = some reading ∧ dataOfReading path reading = .ok before ∧ task.Makes p before data

namespace Plan

variable {α β : Type} {May : Progress → Access → Prop}

/-- Whether a plan makes allowed accesses only, whatever the answers, and how it ends. -/
def Meets (May : Progress → Access → Prop) (Ends : α → Progress → Prop) :
    Plan α → Progress → Prop
  | done a, p => Ends a p
  | access what next, p =>
    May p what ∧ ∀ answer, (next answer).Meets May Ends (p.after what answer)

lemma meets_bind {Ends : β → Progress → Prop} (x : Plan α) (f : α → Plan β) (p : Progress) :
    (x >>= f).Meets May Ends p ↔ x.Meets May (fun a p' => (f a).Meets May Ends p') p := by
  induction x generalizing p with
  | done a => exact Iff.rfl
  | access what next ih => exact and_congr_right fun _ => forall_congr' fun answer => ih answer _

lemma meets_ask {Ends : β → Progress → Prop} (what : Access) (f : what.Answer → Plan β)
    (p : Progress) :
    (ask what >>= f).Meets May Ends p ↔
      May p what ∧ ∀ answer, (f answer).Meets May Ends (p.after what answer) := Iff.rfl

lemma Meets.mono {Ends Ends' : α → Progress → Prop} {x : Plan α} {p : Progress}
    (meets : x.Meets May Ends p) (imp : ∀ a p, Ends a p → Ends' a p) : x.Meets May Ends' p := by
  induction x generalizing p with
  | done a => exact imp a p meets
  | access what next ih => exact ⟨meets.1, fun answer => ih answer (meets.2 answer)⟩

end Plan

/-! ## Sessions keep to their tasks -/

namespace Session

variable {path : String} {who : LockHolder} {task : Task} {s : Session} {α : Type}

lemma meets_tryLock (attempts : Nat) :
    (tryLock who attempts : Plan LockAttempt).Meets (task.May path who)
      (fun answer p => p = if answer = .taken then .holding else .start) .start := by
  induction attempts with
  | zero => exact rfl
  | succ attempts ih =>
    refine (Plan.meets_ask (.tryLock who) _ _).2 ⟨.tryLock rfl, fun answer => ?_⟩
    cases answer with
    | taken | refused => exact rfl
    | held => exact ih

/-- Either the session has the lock then or it has nothing. -/
lemma meets_acquire (holder : s.holder = who) :
    (run (acquire : SessionT Plan Unit) s).Meets (task.May path who)
      (fun out p => (out = (.ok (), { s with locked := true }) ∧ p = .holding) ∨
        ∃ e, out = (.error e, s) ∧ p = .start) .start := by
  subst holder
  rw [run_acquire]
  refine (Plan.meets_ask .makeDirectory _ _).2 ⟨.makeDirectory, fun made => ?_⟩
  cases made with
  | false => exact .inr ⟨_, rfl, rfl⟩
  | true =>
    refine (Plan.meets_ask .openLock _ _).2 ⟨.openLock, fun opened => ?_⟩
    cases opened with
    | false => exact .inr ⟨_, rfl, rfl⟩
    | true =>
      refine (Plan.meets_bind _ _ _).2 ((meets_tryLock _).mono fun answer p came => ?_)
      cases answer with
      | taken => exact .inl ⟨rfl, came⟩
      | held | refused => exact .inr ⟨_, rfl, came⟩

/-- A locked run gives the lock back and otherwise ends as what is done inside it. -/
lemma meets_lockedRun (unlocked : s.locked = false) (holder : s.holder = who)
    {body : SessionT Plan α} (Ends : Except ManifestError α → Progress → Prop)
    (fails : ∀ e, Ends (.error e) .start)
    (inside : (run body { s with locked := true }).Meets (task.May path who)
      (fun out p => out.2 = { s with locked := true } ∧ p.locked = true ∧
        Ends out.1 { p with locked := false }) .holding) :
    (run acquire s >>= goOn fun _ => run (thenRelease body)).Meets (task.May path who)
      (fun out p => out.2 = s ∧ p.locked = false ∧ Ends out.1 p) .start := by
  refine (Plan.meets_bind _ _ _).2 ((meets_acquire holder).mono fun out p came => ?_)
  obtain ⟨rfl, rfl⟩ | ⟨e, rfl, rfl⟩ := came
  · rw [goOn, run_thenRelease]
    refine (Plan.meets_bind _ _ _).2 (inside.mono fun out p came => ?_)
    obtain ⟨result, s'⟩ := out
    obtain ⟨rfl, locked, ends⟩ := came
    refine (Plan.meets_ask (.unlock _) _ _).2 ⟨holder ▸ .unlock locked, fun _ => ?_⟩
    exact ⟨by rw [← unlocked], rfl, ends⟩
  · exact ⟨rfl, rfl, fails e⟩

/-- Reading in a locked run finds what the manifest records. -/
lemma meets_readFile (path_eq : s.file = path) {p : Progress} (locked : p.locked = true)
    (unwritten : p.wrote = none) :
    (run (readFile : SessionT Plan ManifestData) s).Meets (task.May path who)
      (fun out p' => out.2 = s ∧ ∃ reading, p' = { p with found := some reading } ∧
        out.1 = dataOfReading path reading) p := by
  subst path_eq
  rw [run_readFile]
  exact (Plan.meets_ask .readManifest _ _).2
    ⟨.readManifest locked unwritten, fun reading => ⟨rfl, reading, rfl, rfl⟩⟩

end Session

open Session

namespace Task

variable {path : String} {who : LockHolder} {s : Session}

lemma read_meets (unlocked : s.locked = false) (holder : s.holder = who)
    (path_eq : s.file = path) :
    (Task.read.plan s).Meets (Task.read.May path who)
      (fun out p => out.2 = s ∧ p.locked = false ∧ Task.read.Concludes path p out.1) .start := by
  rw [plan, body, run_read s unlocked]
  refine meets_lockedRun unlocked holder (fun result p => Task.read.Concludes path p result)
    (fun e => rfl) ?_
  have file : ({ s with locked := true } : Session).file = path := path_eq
  refine (meets_readFile file (p := .holding) rfl rfl).mono fun out p came => ?_
  obtain ⟨result, s'⟩ := out
  obtain ⟨rfl, reading, rfl, rfl⟩ := came
  refine ⟨rfl, rfl, ?_⟩
  cases read : dataOfReading path reading with
  | error e => exact rfl
  | ok data => exact ⟨reading, data, rfl, read, rfl, rfl⟩

lemma run_outcome_bind {m : Type → Type} [Monad m] [LawfulMonad m] {α β : Type}
    (result : Except ManifestError α) (next : α → SessionT m β) (s : Session) :
    run (outcome result >>= next) s = goOn (fun a => run (next a)) (result, s) := by
  have alone : run (outcome result : SessionT m α) s = pure (result, s) := rfl
  rw [run_bind, alone, pure_bind]

/-- What is written is made of what was found, and only if making it did not fail. -/
lemma revise_meets (locked : s.locked = true) (path_eq : s.file = path)
    (modify : ManifestData → Except ManifestError ManifestData) :
    (run (revise modify : SessionT Plan ManifestData) s).Meets ((Task.update modify).May path who)
      (fun out p => out.2 = s ∧ p.locked = true ∧
        (Task.update modify).Concludes path { p with locked := false } out.1) .holding := by
  rw [revise, run_bind, run_read_locked s locked]
  refine (Plan.meets_bind _ _ _).2
    ((meets_readFile path_eq (p := .holding) rfl rfl).mono fun out p came => ?_)
  obtain ⟨result, s'⟩ := out
  obtain ⟨rfl, reading, rfl, rfl⟩ := came
  cases read : dataOfReading path reading with
  | error e => exact ⟨rfl, rfl, rfl⟩
  | ok data =>
    rw [goOn, run_outcome_bind]
    cases modified : modify data with
    | error e => exact ⟨rfl, rfl, rfl⟩
    | ok data' =>
      rw [goOn, run_bind, run_write _ locked]
      refine (Plan.meets_ask (.replaceManifest _) _ _).2
        ⟨.replaceManifest rfl rfl rfl rfl read modified, fun replaced => ?_⟩
      cases replaced with
      | false => exact ⟨rfl, rfl, rfl⟩
      | true => exact ⟨rfl, rfl, reading, data, rfl, read, rfl, modified⟩

lemma update_meets (unlocked : s.locked = false) (holder : s.holder = who)
    (path_eq : s.file = path) (modify : ManifestData → Except ManifestError ManifestData) :
    ((Task.update modify).plan s).Meets ((Task.update modify).May path who)
      (fun out p => out.2 = s ∧ p.locked = false ∧
        (Task.update modify).Concludes path p out.1) .start := by
  have file : ({ s with locked := true } : Session).file = path := path_eq
  rw [plan, body, run_whileLocked s unlocked]
  exact meets_lockedRun unlocked holder
    (fun result p => (Task.update modify).Concludes path p result) (fun e => rfl)
    (revise_meets rfl file modify)

/-- What a session does for a task, whatever the answers are. -/
lemma plan_meets (task : Task) (unlocked : s.locked = false) (holder : s.holder = who)
    (path_eq : s.file = path) :
    (task.plan s).Meets (task.May path who)
      (fun out p => out.2 = s ∧ p.locked = false ∧ task.Concludes path p out.1) .start := by
  cases task with
  | read => exact read_meets unlocked holder path_eq
  | update modify => exact update_meets unlocked holder path_eq modify

end Task

end UpgradeSafety
