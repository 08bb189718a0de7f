import Mathlib.Logic.Function.Basic
import UpgradeSafety.Proofs.Manifest.Tasks

/-!
# Sessions side by side

Any number of sessions at one manifest, which go on in any order, one access at a
time. The lock makes them take turns: who writes has read what the last writer
before it wrote.
-/

namespace UpgradeSafety

open Session (dataOfReading textOfData)

/-! ## Steps of sessions -/

/-- What a session is doing at the moment. -/
inductive Activity where
  | idle (s : Session)
  | doing (task : Task) (rest : Plan (Except ManifestError ManifestData × Session))

/-- The disk and what the sessions are doing, each under the name of its lock holder. -/
structure World where
  disk : Disk
  activity : LockHolder → Activity

inductive Event where
  | began (task : Task)
  | did (what : Access) (answer : what.Answer)
  | ended (result : Except ManifestError ManifestData)

/-- A session goes on by one step. -/
inductive Step (w : World) (who : LockHolder) : Event → World → Prop where
  | begin {s : Session} (task : Task) (idle : w.activity who = .idle s) :
      Step w who (.began task)
        { w with activity := Function.update w.activity who (.doing task (task.plan s)) }
  | access {task : Task} {what : Access}
      {next : what.Answer → Plan (Except ManifestError ManifestData × Session)}
      {answer : what.Answer} {disk : Disk} (busy : w.activity who = .doing task (.access what next))
      (answered : Answered w.disk what answer disk) :
      Step w who (.did what answer)
        ⟨disk, Function.update w.activity who (.doing task (next answer))⟩
  | finish {task : Task} {result : Except ManifestError ManifestData} {s : Session}
      (busy : w.activity who = .doing task (.done (result, s))) :
      Step w who (.ended result) { w with activity := Function.update w.activity who (.idle s) }

/-- What has happened so far, the latest event first. -/
abbrev Past := List (LockHolder × Event)

/-- The worlds that sessions get to by steps in any order, with what happened. -/
inductive Reaches (w : World) : Past → World → Prop where
  | start : Reaches w [] w
  | step {past : Past} {w' w'' : World} {who : LockHolder} {event : Event}
      (before : Reaches w past w') (next : Step w' who event w'') :
      Reaches w ((who, event) :: past) w''

/-! ## What the events tell -/

def Progress.over (p : Progress) : Event → Progress
  | .began _ => .start
  | .did what answer => p.after what answer
  | .ended _ => p

/-- How far a session has come with its last task. -/
def Past.progress (who : LockHolder) : Past → Progress
  | [] => .start
  | (other, event) :: past =>
    if other = who then (progress who past).over event else progress who past

/-- The task of a session after an event of its own. -/
def Event.task? (before : Option Task) : Event → Option Task
  | .began task => some task
  | .did _ _ => before
  | .ended _ => none

/-- The task that a session is at, if it is at one. -/
def Past.task? (who : LockHolder) : Past → Option Task
  | [] => none
  | (other, event) :: past => if other = who then event.task? (task? who past) else task? who past

/-- The time from taking the lock on, what was found and what was written in it. -/
structure Turn where
  who : LockHolder
  task : Option Task
  found : Option Reading
  wrote : Option String

/-- Changes the latest turn of a session. -/
def Turn.note (who : LockHolder) (change : Turn → Turn) : List Turn → List Turn
  | [] => []
  | turn :: earlier =>
    if turn.who = who then change turn :: earlier else turn :: note who change earlier

/-- The turns after an event of a session. -/
def Turn.listed (who : LockHolder) (task : Option Task) (turns : List Turn) : Event → List Turn
  | .did (.tryLock _) .taken => ⟨who, task, none, none⟩ :: turns
  | .did .readManifest reading => note who (fun turn => { turn with found := some reading }) turns
  | .did (.replaceManifest text) true =>
    note who (fun turn => { turn with wrote := some text }) turns
  | _ => turns

/-- The turns in the order in which the lock was taken, the latest first. -/
def Past.turns : Past → List Turn
  | [] => []
  | (who, event) :: past => Turn.listed who (Past.task? who past) (turns past) event

/-! ## Turns one after the other -/

/--
The contents after some turns, the latest first, where each turn that reads finds
what the turns before it left, unless reading is refused, and each turn that writes
puts what it made of that in its place.
-/
inductive Serial (path : String) (initial : Reading) : List Turn → Reading → Prop where
  | start : Serial path initial [] initial
  | quiet {turn : Turn} {earlier : List Turn} {contents : Reading}
      (before : Serial path initial earlier contents) (unwritten : turn.wrote = none)
      (found : ∀ reading ∈ turn.found, reading = .unreadable ∨ reading = contents) :
      Serial path initial (turn :: earlier) contents
  | commit {turn : Turn} {earlier : List Turn} {contents : Reading}
      {modify : ManifestData → Except ManifestError ManifestData} {data data' : ManifestData}
      (before : Serial path initial earlier contents) (update : turn.task = some (.update modify))
      (found : turn.found = some contents) (read : dataOfReading path contents = .ok data)
      (modified : modify data = .ok data') (wrote : turn.wrote = some (textOfData data')) :
      Serial path initial (turn :: earlier) (.text (textOfData data'))

section

variable {path : String} {who other : LockHolder} {past : Past} {event : Event}

lemma progress_same : Past.progress who ((who, event) :: past) =
    (Past.progress who past).over event := if_pos rfl

lemma progress_other (h : other ≠ who) :
    Past.progress who ((other, event) :: past) = Past.progress who past := if_neg h

lemma task?_same : Past.task? who ((who, event) :: past) =
    event.task? (Past.task? who past) := if_pos rfl

lemma task?_other (h : other ≠ who) :
    Past.task? who ((other, event) :: past) = Past.task? who past := if_neg h

lemma Turn.note_head (who : LockHolder) (task : Option Task) (found : Option Reading)
    (wrote : Option String) (change : Turn → Turn) (earlier : List Turn) :
    note who change (⟨who, task, found, wrote⟩ :: earlier) =
      change ⟨who, task, found, wrote⟩ :: earlier := if_pos rfl

end

/-! ## What every step keeps -/

/-- What a session may still do, given what happened. -/
def Activity.Behaves (path : String) (who : LockHolder) (s : Session) (past : Past) :
    Activity → Prop
  | .idle s' => s' = s ∧ (Past.progress who past).locked = false
  | .doing task rest => Past.task? who past = some task ∧
      rest.Meets (task.May path who)
        (fun out p => out.2 = s ∧ p.locked = false ∧ task.Concludes path p out.1)
        (Past.progress who past)

/-- A disk without its directory has no manifest. -/
def Disk.Consistent (d : Disk) : Prop := d.directory ≠ .present → d.manifest = .absent

lemma Disk.makeDirectory_keeps {d : Disk} (consistent : d.Consistent) :
    d.makeDirectory.2.Consistent ∧ d.makeDirectory.2.holder = d.holder ∧
      d.makeDirectory.2.readManifest = d.readManifest := by
  obtain ⟨directory, manifest, lock, holder⟩ := d
  cases directory with
  | missing =>
    obtain rfl : manifest = .absent := consistent nofun
    exact ⟨fun _ => rfl, rfl, rfl⟩
  | blocked | present => exact ⟨consistent, rfl, rfl⟩

lemma Disk.openLock_keeps {d : Disk} (consistent : d.Consistent) :
    d.openLock.2.Consistent ∧ d.openLock.2.holder = d.holder ∧
      d.openLock.2.readManifest = d.readManifest := by
  obtain ⟨directory, manifest, lock, holder⟩ := d
  cases directory <;> cases lock <;> exact ⟨consistent, rfl, rfl⟩

lemma Disk.replaceManifest_cases (d : Disk) (text : String) :
    (d.directory = .present ∧
        d.replaceManifest text = (true, { d with manifest := .file (some text) })) ∨
      d.replaceManifest text = (false, d) := by
  obtain ⟨directory, manifest, lock, holder⟩ := d
  cases directory with
  | missing | blocked => exact .inr rfl
  | present =>
    cases manifest with
    | directory => exact .inr rfl
    | absent | file content => exact .inl ⟨rfl, rfl⟩

lemma Serial.before {path : String} {initial contents : Reading} {turn : Turn}
    {earlier : List Turn} (serial : Serial path initial (turn :: earlier) contents)
    (unwritten : turn.wrote = none) :
    Serial path initial earlier contents ∧
      ∀ reading ∈ turn.found, reading = .unreadable ∨ reading = contents := by
  cases serial with
  | quiet before _ found => exact ⟨before, found⟩
  | commit _ _ _ _ _ wrote =>
    rw [unwritten] at wrote
    cases wrote

/-- The disk agrees with what happened, and the turns follow one another. -/
structure Ordered (path : String) (initial : Reading) (past : Past) (d : Disk) : Prop where
  consistent : d.Consistent
  lock : ∀ who, (Past.progress who past).locked = true ↔ d.holder = some who
  turn : ∀ who, (Past.progress who past).locked = true →
    ∃ earlier, Past.turns past = ⟨who, Past.task? who past, (Past.progress who past).found,
      (Past.progress who past).wrote⟩ :: earlier
  serial : Serial path initial (Past.turns past) d.readManifest

section

variable {path : String} {initial : Reading} {who other : LockHolder} {past : Past} {event : Event}
  {d d' : Disk} {task : Task}

lemma Activity.Behaves.skip {a : Activity} {s : Session} (h : other ≠ who)
    (behaves : a.Behaves path who s past) : a.Behaves path who s ((other, event) :: past) := by
  cases a with
  | idle s' => rwa [Behaves, progress_other h]
  | doing task rest => rwa [Behaves, progress_other h, task?_other h]

namespace Ordered

/-- Nobody has the lock but its holder. -/
lemma eq_of_locked (ordered : Ordered path initial past d)
    (one : (Past.progress who past).locked = true)
    (two : (Past.progress other past).locked = true) : who = other :=
  Option.some.inj (((ordered.lock who).1 one).symm.trans ((ordered.lock other).1 two))

/-- Nothing changes where an event moves neither the lock nor the manifest. -/
lemma unmoved (ordered : Ordered path initial past d) (consistent : d'.Consistent)
    (holder : d'.holder = d.holder) (contents : d'.readManifest = d.readManifest)
    (turns : Past.turns ((who, event) :: past) = Past.turns past)
    (locked : (Past.progress who ((who, event) :: past)).locked = (Past.progress who past).locked)
    (same : (Past.progress who past).locked = true →
      Past.progress who ((who, event) :: past) = Past.progress who past ∧
        Past.task? who ((who, event) :: past) = Past.task? who past) :
    Ordered path initial ((who, event) :: past) d' where
  consistent := consistent
  lock other := by
    rw [holder, ← ordered.lock other]
    by_cases h : who = other
    · rw [← h, locked]
    · rw [progress_other h]
  turn other := by
    rw [turns]
    by_cases h : who = other
    · subst h
      rw [locked]
      intro held
      rw [(same held).1, (same held).2]
      exact ordered.turn who held
    · rw [progress_other h, task?_other h]
      exact ordered.turn other
  serial := by
    rw [turns, contents]
    exact ordered.serial

lemma began (ordered : Ordered path initial past d)
    (unlocked : (Past.progress who past).locked = false) :
    Ordered path initial ((who, .began task) :: past) d :=
  ordered.unmoved ordered.consistent rfl rfl rfl (by rw [progress_same, unlocked]; rfl)
    fun held => absurd held (by simp [unlocked])

lemma ended (ordered : Ordered path initial past d)
    (unlocked : (Past.progress who past).locked = false)
    (result : Except ManifestError ManifestData) :
    Ordered path initial ((who, .ended result) :: past) d :=
  ordered.unmoved ordered.consistent rfl rfl rfl (by rw [progress_same]; rfl)
    fun held => absurd held (by simp [unlocked])

/-- Accesses that neither move the lock nor the manifest. -/
lemma passed (ordered : Ordered path initial past d) {what : Access} {answer : what.Answer}
    (consistent : d'.Consistent) (holder : d'.holder = d.holder)
    (contents : d'.readManifest = d.readManifest)
    (still : (Past.progress who past).after what answer = Past.progress who past)
    (unlisted : Past.turns ((who, .did what answer) :: past) = Past.turns past) :
    Ordered path initial ((who, .did what answer) :: past) d' :=
  ordered.unmoved consistent holder contents unlisted
    (by rw [progress_same, Progress.over, still])
    fun _ => ⟨by rw [progress_same, Progress.over, still], by rw [task?_same, Event.task?]⟩

lemma triedLock (ordered : Ordered path initial past d)
    (fresh : Past.progress who past = .start) :
    Ordered path initial ((who, .did (.tryLock who) (d.attemptLock who).1) :: past)
      (d.attemptLock who).2 := by
  cases held : d.holder with
  | some other =>
    have refused : d.attemptLock who = (.held, d) := by rw [Disk.attemptLock, Disk.tryLock, held]
    rw [refused]
    exact ordered.passed ordered.consistent rfl rfl rfl rfl
  | none =>
    have taken : d.attemptLock who = (.taken, { d with holder := some who }) := by
      rw [Disk.attemptLock, Disk.tryLock, held]
    have nobody (other : LockHolder) : (Past.progress other past).locked = false := by
      rw [Bool.eq_false_iff, Ne, ordered.lock other, held]
      exact nofun
    rw [taken]
    refine ⟨ordered.consistent, fun other => ?_, fun other held => ?_, ?_⟩
    · by_cases h : who = other
      · subst h
        exact iff_of_true (by rw [progress_same]; rfl) rfl
      · rw [progress_other h, nobody]
        exact iff_of_false nofun fun same => h (Option.some.inj same)
    · by_cases h : who = other
      · subst h
        rw [progress_same, task?_same, fresh]
        exact ⟨Past.turns past, rfl⟩
      · rw [progress_other h, nobody] at held
        cases held
    · exact .quiet ordered.serial rfl nofun

lemma gaveBack (ordered : Ordered path initial past d)
    (locked : (Past.progress who past).locked = true) :
    Ordered path initial ((who, .did (.unlock who) ()) :: past) (d.unlock who) := by
  have holder := (ordered.lock who).1 locked
  have unlocked : d.unlock who = { d with holder := none } := if_pos holder
  have nobody (other : LockHolder) :
      (Past.progress other ((who, .did (.unlock who) ()) :: past)).locked = false := by
    by_cases h : who = other
    · subst h
      rw [progress_same]
      rfl
    · rw [progress_other h, Bool.eq_false_iff]
      exact fun held => h (ordered.eq_of_locked locked held)
  rw [unlocked]
  refine ⟨ordered.consistent, fun other => ?_, fun other held => ?_, ordered.serial⟩
  · rw [nobody]
    exact iff_of_false nofun nofun
  · rw [nobody] at held
    cases held

/-- What is noted in a turn by the session that has the lock. -/
lemma noted (ordered : Ordered path initial past d)
    (locked : (Past.progress who past).locked = true) {what : Access} {answer : what.Answer}
    (change : Turn → Turn) (consistent : d'.Consistent) (holder : d'.holder = d.holder)
    (listed : Past.turns ((who, .did what answer) :: past) =
      Turn.note who change (Past.turns past))
    (changed : change ⟨who, Past.task? who past, (Past.progress who past).found,
        (Past.progress who past).wrote⟩ =
      ⟨who, Past.task? who past, ((Past.progress who past).after what answer).found,
        ((Past.progress who past).after what answer).wrote⟩)
    (still : ((Past.progress who past).after what answer).locked = true)
    (serial : ∀ earlier,
      Serial path initial (⟨who, Past.task? who past, (Past.progress who past).found,
        (Past.progress who past).wrote⟩ :: earlier) d.readManifest →
      Serial path initial (⟨who, Past.task? who past,
        ((Past.progress who past).after what answer).found,
        ((Past.progress who past).after what answer).wrote⟩ :: earlier) d'.readManifest) :
    Ordered path initial ((who, .did what answer) :: past) d' := by
  obtain ⟨earlier, turns⟩ := ordered.turn who locked
  have listed : Past.turns ((who, .did what answer) :: past) = ⟨who, Past.task? who past,
      ((Past.progress who past).after what answer).found,
      ((Past.progress who past).after what answer).wrote⟩ :: earlier := by
    rw [listed, turns, Turn.note_head, changed]
  refine ⟨consistent, fun other => ?_, fun other held => ?_, ?_⟩
  · rw [holder, ← ordered.lock other]
    by_cases h : who = other
    · subst h
      rw [progress_same, Progress.over, still, locked]
    · rw [progress_other h]
  · by_cases h : who = other
    · subst h
      exact ⟨earlier, by rw [listed, progress_same, task?_same]; rfl⟩
    · rw [progress_other h] at held
      exact absurd (ordered.eq_of_locked locked held) h
  · rw [listed]
    exact serial earlier (turns ▸ ordered.serial)

lemma found (ordered : Ordered path initial past d)
    (locked : (Past.progress who past).locked = true)
    (unwritten : (Past.progress who past).wrote = none) {reading : Reading}
    (found : reading = .unreadable ∨ reading = d.readManifest) :
    Ordered path initial ((who, .did .readManifest reading) :: past) d := by
  refine ordered.noted locked (fun turn => { turn with found := some reading })
    ordered.consistent rfl rfl rfl locked fun earlier serial => ?_
  refine .quiet (serial.before unwritten).1 unwritten fun other same => ?_
  obtain rfl := Option.some.inj same
  exact found

/-- What is put in place of the manifest was made of what stood there. -/
lemma wrote (ordered : Ordered path initial past d)
    (locked : (Past.progress who past).locked = true)
    (unwritten : (Past.progress who past).wrote = none)
    {modify : ManifestData → Except ManifestError ManifestData} {reading : Reading}
    {data data' : ManifestData} (update : Past.task? who past = some (.update modify))
    (found : (Past.progress who past).found = some reading)
    (read : dataOfReading path reading = .ok data) (modified : modify data = .ok data') :
    Ordered path initial
      ((who, .did (.replaceManifest (textOfData data')) (d.replaceManifest (textOfData data')).1) ::
        past) (d.replaceManifest (textOfData data')).2 := by
  obtain ⟨present, replaced⟩ | refused := d.replaceManifest_cases (textOfData data')
  · rw [replaced]
    refine ordered.noted locked (fun turn => { turn with wrote := some (textOfData data') })
      (fun absent => absurd present absent) rfl rfl rfl locked fun earlier serial => ?_
    have contents : Disk.readManifest { d with manifest := .file (some (textOfData data')) } =
        .text (textOfData data') := by
      rw [Disk.readManifest, present]
    obtain ⟨before, finds⟩ := serial.before unwritten
    -- Data were read, so that reading was not refused and found the contents.
    have same : reading = d.readManifest := by
      rcases finds reading found with rfl | same
      · cases read
      · exact same
    subst same
    rw [contents]
    exact .commit before update found read modified rfl
  · rw [refused]
    exact ordered.passed ordered.consistent rfl rfl rfl rfl

/-- Every access that a session may make keeps the turns in order. -/
lemma accessed (ordered : Ordered path initial past d) (at_task : Past.task? who past = some task)
    {what : Access} (may : task.May path who (Past.progress who past) what)
    {answer : what.Answer} (answered : Answered d what answer d') :
    Ordered path initial ((who, .did what answer) :: past) d' := by
  cases may with
  | makeDirectory =>
    cases answered with
    | served =>
      obtain ⟨consistent, holder, contents⟩ := Disk.makeDirectory_keeps ordered.consistent
      exact ordered.passed consistent holder contents rfl rfl
    | refused refusal => exact ordered.passed ordered.consistent rfl rfl rfl rfl
  | openLock =>
    cases answered with
    | served =>
      obtain ⟨consistent, holder, contents⟩ := Disk.openLock_keeps ordered.consistent
      exact ordered.passed consistent holder contents rfl rfl
    | refused refusal => exact ordered.passed ordered.consistent rfl rfl rfl rfl
  | tryLock fresh =>
    cases answered with
    | served => exact ordered.triedLock fresh
    | refused refusal =>
      obtain rfl := Option.some.inj refusal
      exact ordered.passed ordered.consistent rfl rfl rfl rfl
  | unlock locked =>
    cases answered with
    | served => exact ordered.gaveBack locked
    | refused refusal => cases refusal
  | readManifest locked unwritten =>
    cases answered with
    | served => exact ordered.found locked unwritten (.inr rfl)
    | refused refusal =>
      obtain rfl := Option.some.inj refusal
      exact ordered.found locked unwritten (.inl rfl)
  | replaceManifest update locked unwritten found read modified =>
    cases answered with
    | served => exact ordered.wrote locked unwritten (update ▸ at_task) found read modified
    | refused refusal =>
      obtain rfl := Option.some.inj refusal
      exact ordered.passed ordered.consistent rfl rfl rfl rfl

end Ordered

end

/-! ## Whole runs -/

/-- The sessions for one chain at one directory, each with its own patience. -/
def Session.sharing (directory : String) (chainId : Nat) (retries interval : LockHolder → Nat)
    (who : LockHolder) : Session :=
  .onChain ⟨directory, retries who, interval who⟩ chainId who

def World.start (d : Disk) (sessions : LockHolder → Session) : World :=
  ⟨d, fun who => .idle (sessions who)⟩

/-- The sessions are at one manifest, each under a name of its own and without the lock. -/
structure Session.Side (path : String) (sessions : LockHolder → Session) : Prop where
  file : ∀ who, (sessions who).file = path
  holder : ∀ who, (sessions who).holder = who
  unlocked : ∀ who, (sessions who).locked = false

structure Orderly (path : String) (sessions : LockHolder → Session) (initial : Reading)
    (past : Past) (w : World) : Prop where
  ordered : Ordered path initial past w.disk
  behaves : ∀ who, (w.activity who).Behaves path who (sessions who) past

namespace Orderly

variable {path : String} {sessions : LockHolder → Session} {initial : Reading} {past : Past}
  {w w' : World} {who : LockHolder} {event : Event}

lemma of_update {a : Activity} {d : Disk} (orderly : Orderly path sessions initial past w)
    (ordered : Ordered path initial ((who, event) :: past) d)
    (behaves : a.Behaves path who (sessions who) ((who, event) :: past)) :
    Orderly path sessions initial ((who, event) :: past) ⟨d, Function.update w.activity who a⟩ where
  ordered := ordered
  behaves other := by
    dsimp only
    by_cases h : other = who
    · subst h
      rwa [Function.update_self]
    · rw [Function.update_of_ne h]
      exact (orderly.behaves other).skip (Ne.symm h)

/-- Every step of every session keeps order. -/
lemma step (side : Session.Side path sessions) (orderly : Orderly path sessions initial past w)
    (step : Step w who event w') : Orderly path sessions initial ((who, event) :: past) w' := by
  have behaves := orderly.behaves who
  cases step with
  | begin task idle =>
    rw [idle] at behaves
    obtain ⟨rfl, unlocked⟩ := behaves
    refine orderly.of_update (orderly.ordered.began unlocked) ⟨task?_same, ?_⟩
    rw [progress_same]
    exact task.plan_meets (side.unlocked who) (side.holder who) (side.file who)
  | access busy answered =>
    rw [busy] at behaves
    obtain ⟨at_task, may, meets⟩ := behaves
    refine orderly.of_update (orderly.ordered.accessed at_task may answered)
      ⟨task?_same.trans at_task, ?_⟩
    rw [progress_same]
    exact meets _
  | finish busy =>
    rw [busy] at behaves
    obtain ⟨at_task, same, unlocked, concludes⟩ := behaves
    refine orderly.of_update (orderly.ordered.ended unlocked _) ⟨same, ?_⟩
    rw [progress_same]
    exact unlocked

lemma start {d : Disk} (consistent : d.Consistent)
    (free : d.holder = none) :
    Orderly path sessions d.readManifest [] (World.start d sessions) where
  ordered :=
    { consistent := consistent
      lock := fun who => iff_of_false nofun (by rw [World.start, free]; exact nofun)
      turn := fun who held => nomatch held
      serial := .start }
  behaves who := ⟨rfl, rfl⟩

/-- However the sessions go on, they stay in order. -/
lemma of_reaches (side : Session.Side path sessions) {d : Disk} (consistent : d.Consistent)
    (free : d.holder = none) (reaches : Reaches (World.start d sessions) past w) :
    Orderly path sessions d.readManifest past w := by
  induction reaches with
  | start => exact start consistent free
  | step _ next ih => exact ih.step side next

end Orderly

end UpgradeSafety
