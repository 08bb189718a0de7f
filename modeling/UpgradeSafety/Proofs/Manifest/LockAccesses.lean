import UpgradeSafety.Proofs.Manifest.Tasks

/-!
# Accesses around a lock

The accesses that a session makes with the answers to them, in their order, and how it takes the
lock and gives it back among them.
-/

namespace UpgradeSafety

open Session (run goOn acquire thenRelease)

/-! ## What happens on the way -/

/-- An access with the answer to it. -/
structure Exchange where
  what : Access
  answer : what.Answer

/-- Whether an exchange is one on the way to a lock that is held. -/
def Exchange.waits : Exchange → Bool
  | ⟨.makeDirectory, true⟩ | ⟨.openLock, true⟩ | ⟨.tryLock _, .held⟩ => true
  | _ => false

/-- Whether an access is one to the manifest itself. -/
def Access.onManifest : Access → Bool
  | .readManifest | .replaceManifest _ => true
  | _ => false

namespace Plan

variable {α β : Type}

/-- A plan comes to a result by some accesses with their answers. -/
inductive Yields : Plan α → List Exchange → α → Prop where
  | done (a : α) : Yields (done a) [] a
  | access {what : Access} {next : what.Answer → Plan α} {trace : List Exchange} {a : α}
      (answer : what.Answer) (rest : Yields (next answer) trace a) :
      Yields (access what next) (⟨what, answer⟩ :: trace) a

lemma yields_bind_iff {x : Plan α} {f : α → Plan β} {trace : List Exchange} {b : β} :
    (x >>= f).Yields trace b ↔
      ∃ first second a, trace = first ++ second ∧ x.Yields first a ∧ (f a).Yields second b := by
  induction x generalizing trace with
  | done a =>
    rw [done_bind]
    constructor
    · exact fun rest => ⟨[], trace, a, rfl, .done a, rest⟩
    · rintro ⟨first, second, a', rfl, ⟨⟩, rest⟩
      exact rest
  | access what next ih =>
    rw [access_bind]
    constructor
    · intro came
      cases came with
      | access answer rest =>
        obtain ⟨first, second, a, rfl, came, rest⟩ := (ih answer).1 rest
        exact ⟨_, second, a, rfl, .access answer came, rest⟩
    · rintro ⟨first, second, a, rfl, came, rest⟩
      cases came with
      | access answer came => exact .access answer ((ih answer).2 ⟨_, second, a, rfl, came, rest⟩)

lemma yields_ask_iff {what : Access} {f : what.Answer → Plan β} {trace : List Exchange} {b : β} :
    (ask what >>= f).Yields trace b ↔
      ∃ answer rest, trace = ⟨what, answer⟩ :: rest ∧ (f answer).Yields rest b := by
  constructor
  · intro came
    cases came with
    | access answer rest => exact ⟨answer, _, rfl, rest⟩
  · rintro ⟨answer, rest, rfl, came⟩
    exact .access answer came

/-- The answers decide what a plan comes to. -/
lemma Yields.unique {x : Plan α} {trace : List Exchange} {a b : α} (came : x.Yields trace a)
    (came' : x.Yields trace b) : a = b := by
  induction came with
  | done a =>
    cases came'
    rfl
  | access answer _ ih =>
    cases came' with
    | access _ rest' => exact ih rest'

/-- Only what a plan comes to matters for what is done afterwards. -/
lemma bind_congr_yields {x : Plan α} {f g : α → Plan β}
    (same : ∀ trace a, x.Yields trace a → f a = g a) : (x >>= f) = x >>= g := by
  induction x with
  | done a => exact same [] a (.done a)
  | access what next ih =>
    rw [access_bind, access_bind]
    exact congrArg _ (funext fun answer => ih answer fun trace a came =>
      same _ a (.access answer came))

/-- Answers that may depend on what has happened before. -/
abbrev Answering := List Exchange → (what : Access) → what.Answer

/-- The answers on the way are the given ones. -/
def Answers (answering : Answering) (trace : List Exchange) : Prop :=
  ∀ past next rest, trace = past ++ next :: rest → next.answer = answering past next.what

/-- Whatever the answers are, a plan comes to a result. -/
lemma exists_yields (x : Plan α) (answering : Answering) :
    ∃ trace a, x.Yields trace a ∧ Answers answering trace := by
  induction x generalizing answering with
  | done a => exact ⟨[], a, .done a, fun past next rest split => by simp at split⟩
  | access what next ih =>
    obtain ⟨trace, a, came, answered⟩ := ih (answering [] what)
      fun past => answering (⟨what, answering [] what⟩ :: past)
    refine ⟨_, a, .access _ came, fun past next rest split => ?_⟩
    cases past with
    | nil =>
      obtain ⟨rfl, _⟩ := List.cons.inj split
      rfl
    | cons first past =>
      obtain ⟨rfl, behind⟩ := List.cons.inj split
      exact answered past next rest behind

end Plan

/-! ## Getting the lock -/

namespace Session

variable {s : Session} {α β : Type}

/-- The accesses before the first attempt to take the lock. -/
def opening : List Exchange := [⟨.makeDirectory, true⟩, ⟨.openLock, true⟩]

/-- A number of attempts that find the lock held. -/
def waiting (s : Session) (n : Nat) : List Exchange :=
  List.replicate n ⟨.tryLock s.holder, LockAttempt.held⟩

/-- All attempts find the lock held. -/
def contended (s : Session) : List Exchange := opening ++ s.waiting (s.config.lockRetries + 1)

/-- How a session gets the lock or does not get it. -/
inductive Acquires (s : Session) : List Exchange → Except ManifestError Unit × Session → Prop where
  | noDirectory : Acquires s [⟨.makeDirectory, false⟩]
      (.error (.inaccessible s.config.directory), s)
  | noLockFile : Acquires s [⟨.makeDirectory, true⟩, ⟨.openLock, false⟩]
      (.error (.inaccessible s.lockFile), s)
  | taken {n : Nat} (few : n ≤ s.config.lockRetries) :
      Acquires s (opening ++ s.waiting n ++ [⟨.tryLock s.holder, LockAttempt.taken⟩])
        (.ok (), { s with locked := true })
  | refused {n : Nat} (few : n ≤ s.config.lockRetries) :
      Acquires s (opening ++ s.waiting n ++ [⟨.tryLock s.holder, LockAttempt.refused⟩])
        (.error (.inaccessible s.lockFile), s)
  | contended : Acquires s s.contended
      (.error (.lockContention s.lockFile (s.config.lockRetries + 1)), s)

/-- What some attempts come to. -/
inductive Tries (s : Session) (attempts : Nat) : List Exchange → LockAttempt → Prop where
  | held : Tries s attempts (s.waiting attempts) .held
  | ended {n : Nat} {answer : LockAttempt} (few : n < attempts) (other : answer ≠ .held) :
      Tries s attempts (s.waiting n ++ [⟨.tryLock s.holder, answer⟩]) answer

lemma tries_of_yields {attempts : Nat} {trace : List Exchange} {answer : LockAttempt}
    (came : (tryLock s.holder attempts : Plan LockAttempt).Yields trace answer) :
    s.Tries attempts trace answer := by
  induction attempts generalizing trace with
  | zero =>
    cases came
    exact .held
  | succ attempts ih =>
    obtain ⟨first, rest, rfl, further⟩ := Plan.yields_ask_iff.1 came
    cases first with
    | held =>
      cases ih further with
      | held => exact .held
      | @ended n _ few other => exact .ended (n := n + 1) (by omega) other
    | taken | refused =>
      cases further
      exact .ended (n := 0) (by omega) nofun

lemma acquires_of_yields {trace : List Exchange} {out : Except ManifestError Unit × Session}
    (came : (run (acquire : SessionT Plan Unit) s).Yields trace out) : s.Acquires trace out := by
  rw [run_acquire] at came
  obtain ⟨made, rest, rfl, opens⟩ := Plan.yields_ask_iff.1 came
  cases made with
  | false =>
    cases opens
    exact .noDirectory
  | true =>
    obtain ⟨opened, rest, rfl, tries⟩ := Plan.yields_ask_iff.1 opens
    cases opened with
    | false =>
      cases tries
      exact .noLockFile
    | true =>
      obtain ⟨attempts, last, answer, rfl, tried, ends⟩ := Plan.yields_bind_iff.1 tries
      cases tries_of_yields tried with
      | held =>
        cases ends
        rw [List.append_nil]
        exact .contended
      | @ended n _ few other =>
        cases answer with
        | held => exact absurd rfl other
        | taken =>
          cases ends
          rw [List.append_nil]
          exact .taken (n := n) (by omega)
        | refused =>
          cases ends
          rw [List.append_nil]
          exact .refused (n := n) (by omega)

/-- Something is done between taking the lock and giving it back, or the lock is not taken. -/
inductive UnderLock (s : Session) (inside : Plan (Except ManifestError α × Session)) :
    List Exchange → Except ManifestError α × Session → Prop where
  | failed {trace : List Exchange} {e : ManifestError} (acquired : s.Acquires trace (.error e, s)) :
      UnderLock s inside trace (.error e, s)
  | ran {taking trace : List Exchange} {result : Except ManifestError α}
      (acquired : s.Acquires taking (.ok (), { s with locked := true }))
      (came : inside.Yields trace (result, { s with locked := true })) :
      UnderLock s inside (taking ++ trace ++ [⟨.unlock s.holder, ()⟩]) (result, s)

lemma underLock_of_yields (unlocked : s.locked = false) {body : SessionT Plan α}
    (kept : ∀ trace out, (run body { s with locked := true }).Yields trace out →
      out.2 = { s with locked := true })
    {trace : List Exchange} {out : Except ManifestError α × Session}
    (came : (run acquire s >>= goOn fun _ => run (thenRelease body)).Yields trace out) :
    s.UnderLock (run body { s with locked := true }) trace out := by
  obtain ⟨taking, rest, acquired, rfl, takes, further⟩ := Plan.yields_bind_iff.1 came
  have failed {e : ManifestError} {taking : List Exchange}
      (acquired : s.Acquires taking (.error e, s))
      (ends : (Plan.done (.error e, s)).Yields rest out) :
      s.UnderLock (run body { s with locked := true }) (taking ++ rest) out := by
    cases ends
    rw [List.append_nil]
    exact .failed acquired
  cases acquires_of_yields takes with
  | taken few =>
    rw [goOn, run_thenRelease] at further
    obtain ⟨inside, last, ⟨result, s'⟩, rfl, did, ends⟩ := Plan.yields_bind_iff.1 further
    obtain rfl := kept inside _ did
    rw [if_pos rfl] at ends
    obtain ⟨answer, rest, rfl, done⟩ := Plan.yields_ask_iff.1 ends
    cases done
    have same : { s with locked := false } = s := by rw [← unlocked]
    have ran := UnderLock.ran (.taken few) did
    rw [← List.append_assoc]
    exact same ▸ ran
  | noDirectory => exact failed .noDirectory further
  | noLockFile => exact failed .noLockFile further
  | refused few => exact failed (.refused few) further
  | contended => exact failed .contended further

/-- Going on the same way from where the lock is taken is all that matters. -/
lemma acquire_bind_congr {f g : Unit → Session → Plan (Except ManifestError β × Session)}
    (same : f () { s with locked := true } = g () { s with locked := true }) :
    (run (acquire : SessionT Plan Unit) s >>= goOn f) = run acquire s >>= goOn g := by
  refine Plan.bind_congr_yields fun trace out came => ?_
  cases acquires_of_yields came with
  | taken => exact same
  | _ => rfl

/-! ## Getting no lock -/

/-- The result says that the lock was held all the time. -/
def Contended (result : Except ManifestError α) : Prop :=
  ∃ path attempts, result = .error (.lockContention path attempts)

lemma waits_of_mem_contended {e : Exchange} (mem : e ∈ s.contended) : e.waits = true := by
  have first : ∀ e ∈ opening, e.waits = true := by simp [opening, Exchange.waits]
  rcases List.mem_append.1 mem with early | late
  · exact first e early
  · rw [List.eq_of_mem_replicate late]
    rfl

lemma ne_contended {trace : List Exchange} {e : Exchange} (mem : e ∈ trace)
    (other : e.waits = false) : trace ≠ s.contended := by
  rintro rfl
  rw [waits_of_mem_contended mem] at other
  cases other

/-- A result says that the lock was held just if all attempts have found it so. -/
def Reports (s : Session) (trace : List Exchange) (result : Except ManifestError α) : Prop :=
  ∀ path attempts, result = .error (.lockContention path attempts) ↔
    trace = s.contended ∧ path = s.lockFile ∧ attempts = s.config.lockRetries + 1

lemma reports_of_not {trace : List Exchange} {result : Except ManifestError α}
    (silent : ¬ Contended result) (other : trace ≠ s.contended) :
    s.Reports trace result := fun path attempts =>
  iff_of_false (fun tells => silent ⟨path, attempts, tells⟩) fun found => other found.1

lemma Acquires.reports {trace : List Exchange} {e : ManifestError}
    (h : s.Acquires trace (.error e, s)) :
    s.Reports trace (.error e : Except ManifestError α) := by
  have other {path : String} :
      ¬ Contended (.error (.inaccessible path) : Except ManifestError α) := by
    rintro ⟨_, _, ⟨⟩⟩
  cases h with
  | noDirectory =>
    exact reports_of_not other (ne_contended (e := ⟨.makeDirectory, false⟩) (by simp) rfl)
  | noLockFile =>
    exact reports_of_not other (ne_contended (e := ⟨.openLock, false⟩) (by simp) rfl)
  | refused =>
    exact reports_of_not other
      (ne_contended (e := ⟨.tryLock s.holder, LockAttempt.refused⟩) (by simp) rfl)
  | contended =>
    intro path attempts
    simp [eq_comm]

lemma UnderLock.reports {inside : Plan (Except ManifestError α × Session)}
    (honest : ∀ trace out, inside.Yields trace out → ¬ Contended out.1)
    {trace : List Exchange} {out : Except ManifestError α × Session}
    (h : s.UnderLock inside trace out) : s.Reports trace out.1 := by
  cases h with
  | failed acquired => exact acquired.reports
  | ran acquired came =>
    have silent := honest _ _ came
    exact reports_of_not silent (ne_contended (e := ⟨.unlock s.holder, ()⟩) (by simp) rfl)

lemma contended_elsewhere {e : Exchange} (mem : e ∈ s.contended) : e.what.onManifest = false := by
  have waits := waits_of_mem_contended mem
  obtain ⟨what, answer⟩ := e
  cases what with
  | readManifest | replaceManifest text => cases waits
  | _ => rfl

lemma tryLock_yields (s : Session) (attempts : Nat) :
    (tryLock s.holder attempts : Plan LockAttempt).Yields (s.waiting attempts) .held := by
  induction attempts with
  | zero => exact .done _
  | succ attempts ih => exact Plan.yields_ask_iff.2 ⟨_, _, rfl, ih⟩

lemma acquire_yields_contended (s : Session) :
    (run (acquire : SessionT Plan Unit) s).Yields s.contended
      (.error (.lockContention s.lockFile (s.config.lockRetries + 1)), s) := by
  rw [run_acquire]
  refine Plan.yields_ask_iff.2 ⟨true, _, rfl, Plan.yields_ask_iff.2 ⟨true, _, rfl, ?_⟩⟩
  exact Plan.yields_bind_iff.2
    ⟨_, [], _, (List.append_nil _).symm, s.tryLock_yields _, .done _⟩

end Session

end UpgradeSafety
