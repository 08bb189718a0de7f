import UpgradeSafety.Proofs.Manifest.Interleavings
import UpgradeSafety.Proofs.Manifest.ReadManifests

/-!
# No update is lost

However many sessions read and change one manifest side by side, what it records
in the end is what the committed changes make of the first contents, one after the
other in the order in which their sessions took the lock.
-/

namespace UpgradeSafety

open Session (dataOfReading textOfData)

/-! ## The committed changes -/

/-- The change that was committed in a turn. -/
def Turn.change? (turn : Turn) : Option (ManifestData → Except ManifestError ManifestData) :=
  match turn.wrote, turn.task with
  | some _, some (.update modify) => some modify
  | _, _ => none

/-- What the committed changes of some turns, the latest first, make of some data. -/
def Turn.replay (data : ManifestData) : List Turn → Except ManifestError ManifestData
  | [] => .ok data
  | turn :: earlier =>
    match turn.change? with
    | some modify => replay data earlier >>= modify
    | none => replay data earlier

/-- Whether the change of a turn leaves the version and keeps every number in its range. -/
def Turn.Current (turn : Turn) : Prop :=
  ∀ modify, turn.task = some (.update modify) → ∀ data data', data.Fits →
    data.schemaVersion = currentSchemaVersion → modify data = .ok data' →
    data'.Fits ∧ data'.schemaVersion = currentSchemaVersion

namespace Serial

variable {path : String} {initial contents : Reading} {turns : List Turn}

/-- The data in the end are what the committed changes make of the first data. -/
lemma replay (serial : Serial path initial turns contents)
    (current : ∀ turn ∈ turns, turn.Current) {data : ManifestData}
    (first : dataOfReading path initial = .ok data) :
    dataOfReading path contents = Turn.replay data turns := by
  induction serial with
  | start => exact first
  | quiet before unwritten found ih =>
    rename_i turn earlier contents
    have none : turn.change? = none := by
      rw [Turn.change?, unwritten]
    rw [Turn.replay, none]
    exact ih fun turn listed => current turn (List.mem_cons_of_mem _ listed)
  | commit before update found read modified wrote ih =>
    rename_i turn earlier contents modify before' data'
    have change : turn.change? = some modify := by
      rw [Turn.change?, wrote, update]
    obtain ⟨fits, version⟩ := Session.current_of_read read
    obtain ⟨fits, version⟩ :=
      current turn List.mem_cons_self modify update before' data' fits version modified
    have stored : dataOfReading path (.text (textOfData data')) = .ok data' := by
      rw [dataOfReading, Session.dataOfText_textOfData fits (.inl version),
        ManifestData.raised_of_current version]
    have earlierData := ih fun turn listed => current turn (List.mem_cons_of_mem _ listed)
    rw [read] at earlierData
    rw [stored, Turn.replay, change, ← earlierData]
    exact modified.symm

end Serial

/-! ## Single runs -/

/-- The events of a run after one more event, which may begin another run. -/
def Event.since (events : List Event) : Event → List Event
  | .began _ => []
  | event => event :: events

/-- What a session has done since it began its last task, the latest event first. -/
def Past.lastRun (who : LockHolder) : Past → List Event
  | [] => []
  | (other, event) :: past =>
    if other = who then event.since (lastRun who past) else lastRun who past

/-- How far a session has come by what it has done in a run. -/
def Progress.through : List Event → Progress
  | [] => .start
  | .did what answer :: events => (through events).after what answer
  | _ :: events => through events

section

variable {who : LockHolder} {event : Event} {events : List Event} {past : Past}

/-- What a session has come to depends on its last run only. -/
lemma progress_lastRun (who : LockHolder) (past : Past) :
    Past.progress who past = .through (Past.lastRun who past) := by
  induction past with
  | nil => rfl
  | cons last past ih =>
    obtain ⟨other, event⟩ := last
    by_cases same : other = who
    · subst same
      rw [progress_same, Past.lastRun, if_pos rfl, ih]
      cases event <;> rfl
    · rw [progress_other same, Past.lastRun, if_neg same, ih]

lemma mem_lastRun (member : event ∈ Past.lastRun who past) :
    ∃ recent earlier, past = recent ++ (who, event) :: earlier ∧
      ∀ task, (who, .began task) ∉ recent := by
  induction past with
  | nil => cases member
  | cons last past ih =>
    obtain ⟨other, latest⟩ := last
    have further (before : event ∈ Past.lastRun who past)
        (notBegun : ∀ task, (other, latest) ≠ (who, .began task)) :
        ∃ recent earlier, (other, latest) :: past = recent ++ (who, event) :: earlier ∧
          ∀ task, (who, .began task) ∉ recent := by
      obtain ⟨recent, earlier, rfl, none⟩ := ih before
      refine ⟨(other, latest) :: recent, earlier, rfl, fun task begun => ?_⟩
      rcases List.mem_cons.1 begun with now | before
      · exact notBegun task now.symm
      · exact none task before
    by_cases same : other = who
    · subst same
      rw [Past.lastRun, if_pos rfl] at member
      cases latest with
      | began task => cases member
      | did what answer | ended result =>
        rcases List.mem_cons.1 member with rfl | before
        · exact ⟨[], past, rfl, fun _ => nofun⟩
        · exact further before fun _ => nofun
    · rw [Past.lastRun, if_neg same] at member
      exact further member fun _ now => same (Prod.mk.inj now).1

namespace Progress

lemma unwritten_before (unwritten : (through (event :: events)).wrote = none) :
    (through events).wrote = none := by
  cases event with
  | began task | ended result => exact unwritten
  | did what answer =>
    cases what with
    | replaceManifest text =>
      cases answer with
      | true => cases unwritten
      | false => exact unwritten
    | tryLock holder => cases answer <;> exact unwritten
    | makeDirectory | openLock | unlock holder | readManifest => exact unwritten

/-- A session that wrote nothing in a run did not replace the manifest. -/
lemma not_replaced_of_unwritten (unwritten : (through events).wrote = none) (text : String) :
    Event.did (.replaceManifest text) true ∉ events := by
  induction events with
  | nil => exact nofun
  | cons event events ih =>
    intro replaced
    rcases List.mem_cons.1 replaced with rfl | before
    · cases unwritten
    · exact ih (unwritten_before unwritten) before

lemma replaces_of_through {text : String} (before : (through events).wrote ≠ some text)
    (now : (through (event :: events)).wrote = some text) :
    event = .did (.replaceManifest text) true := by
  cases event with
  | began task | ended result => exact absurd now before
  | did what answer =>
    cases what with
    | replaceManifest text' =>
      cases answer with
      | true =>
        obtain rfl := Option.some.inj now
        rfl
      | false => exact absurd now before
    | tryLock holder => cases answer <;> exact absurd now before
    | makeDirectory | openLock | unlock holder | readManifest => exact absurd now before

/-- A session that has written some text replaced the manifest by it. -/
lemma replaced_of_wrote {text : String} (wrote : (through events).wrote = some text) :
    Event.did (.replaceManifest text) true ∈ events := by
  induction events with
  | nil => cases wrote
  | cons event events ih =>
    by_cases already : (through events).wrote = some text
    · exact List.mem_cons_of_mem _ (ih already)
    · rw [replaces_of_through already wrote]
      exact List.mem_cons_self

lemma reads_of_through {reading : Reading} (before : (through events).found ≠ some reading)
    (now : (through (event :: events)).found = some reading) :
    event = .did .readManifest reading := by
  cases event with
  | began task | ended result => exact absurd now before
  | did what answer =>
    cases what with
    | readManifest =>
      obtain rfl := Option.some.inj now
      rfl
    | tryLock holder | replaceManifest text => cases answer <;> exact absurd now before
    | makeDirectory | openLock | unlock holder => exact absurd now before

/-- What a session has found was read by it. -/
lemma read_of_found {reading : Reading} (found : (through events).found = some reading) :
    Event.did .readManifest reading ∈ events := by
  induction events with
  | nil => cases found
  | cons event events ih =>
    by_cases already : (through events).found = some reading
    · exact List.mem_cons_of_mem _ (ih already)
    · rw [reads_of_through already found]
      exact List.mem_cons_self

end Progress

end

namespace Reaches

variable {w w' : World} {past : Past} {who : LockHolder} {event : Event}

lemma last (reaches : Reaches w ((who, event) :: past) w') :
    ∃ between, Reaches w past between ∧ Step between who event w' := by
  cases reaches with
  | step before next => exact ⟨_, before, next⟩

lemma earlier (recent : Past) (reaches : Reaches w (recent ++ past) w') :
    ∃ between, Reaches w past between := by
  induction recent generalizing w' with
  | nil => exact ⟨w', reaches⟩
  | cons event recent ih =>
    obtain ⟨between, before, _⟩ := reaches.last
    exact ih before

end Reaches

/-- The path of the manifest that sessions share. -/
def Session.sharedFile (directory : String) (chainId : Nat) : String :=
  pathIn directory ((Network.ofChainId chainId).name ++ ".json")

lemma Session.sharing_side (directory : String) (chainId : Nat)
    (retries interval : LockHolder → Nat) :
    Side (sharedFile directory chainId) (sharing directory chainId retries interval) :=
  ⟨fun _ => rfl, fun _ => rfl, fun _ => rfl⟩

section

variable {path : String} {sessions : LockHolder → Session} {d : Disk} {recent earlier : Past}
  {w : World} {who : LockHolder}

/-- A run that has ended is explained by what it did. -/
lemma concluded (side : Session.Side path sessions) (consistent : d.Consistent)
    (free : d.holder = none) {result : Except ManifestError ManifestData}
    (reaches : Reaches (World.start d sessions) (recent ++ (who, .ended result) :: earlier) w) :
    (∃ w', Reaches (World.start d sessions) earlier w') ∧
      ∃ task, Past.task? who earlier = some task ∧
        task.Concludes path (Past.progress who earlier) result := by
  obtain ⟨w'', until_end⟩ := reaches.earlier
  obtain ⟨w', before, finish⟩ := until_end.last
  have behaves := (Orderly.of_reaches side consistent free before).behaves who
  cases finish with
  | finish busy =>
    rw [busy] at behaves
    obtain ⟨at_task, -, -, concludes⟩ := behaves
    exact ⟨⟨w', before⟩, _, at_task, concludes⟩

lemma Answered.reading {d' : Disk} {answer : Access.Answer .readManifest}
    (answered : Answered d .readManifest answer d') :
    answer = Reading.unreadable ∨ answer = d.readManifest := by
  cases answered with
  | served => exact .inr rfl
  | refused refusal => exact .inl (Option.some.inj refusal).symm

/-- Data that a session has found were in the manifest since it began its task. -/
lemma found_in_manifest (reaches : Reaches (World.start d sessions) earlier w) {reading : Reading}
    (found : (Past.progress who earlier).found = some reading) {data : ManifestData}
    (read : dataOfReading path reading = .ok data) :
    ∃ between before w', earlier = between ++ before ∧ (∀ task, (who, .began task) ∉ between) ∧
      Reaches (World.start d sessions) before w' ∧
      dataOfReading path w'.disk.readManifest = .ok data := by
  rw [progress_lastRun] at found
  obtain ⟨between, before, rfl, notBegun⟩ := mem_lastRun (Progress.read_of_found found)
  obtain ⟨w'', until_read⟩ := reaches.earlier
  obtain ⟨w', reached, access⟩ := until_read.last
  refine ⟨between ++ [(who, .did Access.readManifest reading)], before, w', by simp,
    fun task begun => ?_, reached, ?_⟩
  · rcases List.mem_append.1 begun with begun | begun
    · exact notBegun task begun
    · exact nomatch List.mem_singleton.1 begun
  · cases access with
    | access busy answered =>
      rcases answered.reading with rfl | rfl
      · cases read
      · exact read

end

/--
Sessions for one chain at one directory, whose steps are mixed in any order, never
have the lock at the same time, and their turns follow one another: each finds what
the turns before it left and commits, if at all, a change of that. The data at any
time are what the committed changes make of the first data in the order of the
locks. A run that fails has changed nothing, an update that succeeds is committed,
and a read returns the data that the manifest had at some moment of the read.
-/
theorem updates_take_turns (directory : String) (chainId : Nat)
    (retries interval : LockHolder → Nat) {d : Disk} (consistent : d.Consistent)
    (free : d.holder = none) {past : Past} {w : World}
    (reaches : Reaches (World.start d (Session.sharing directory chainId retries interval))
      past w) :
    let path := Session.sharedFile directory chainId
    (∀ one two, (Past.progress one past).locked = true →
      (Past.progress two past).locked = true → one = two) ∧
    Serial path d.readManifest (Past.turns past) w.disk.readManifest ∧
    ((∀ turn ∈ Past.turns past, turn.Current) →
      ∀ data, dataOfReading path d.readManifest = .ok data →
        dataOfReading path w.disk.readManifest = Turn.replay data (Past.turns past)) ∧
    ∀ recent who result earlier, past = recent ++ (who, .ended result) :: earlier →
      (∀ e, result = .error e → ∀ text,
        Event.did (.replaceManifest text) true ∉ Past.lastRun who earlier) ∧
      (∀ modify data, Past.task? who earlier = some (.update modify) → result = .ok data →
        Event.did (.replaceManifest (textOfData data)) true ∈ Past.lastRun who earlier) ∧
      ∀ data, Past.task? who earlier = some .read → result = .ok data →
        ∃ between before w', earlier = between ++ before ∧
          (∀ task, (who, .began task) ∉ between) ∧
          Reaches (World.start d (Session.sharing directory chainId retries interval)) before w' ∧
          Serial path d.readManifest (Past.turns before) w'.disk.readManifest ∧
          dataOfReading path w'.disk.readManifest = .ok data := by
  intro path
  have side := Session.sharing_side directory chainId retries interval
  have orderly {past : Past} {w : World}
      (reaches : Reaches
        (World.start d (Session.sharing directory chainId retries interval)) past w) :=
    Orderly.of_reaches side consistent free reaches
  have serial := (orderly reaches).ordered.serial
  refine ⟨fun one two => (orderly reaches).ordered.eq_of_locked, serial,
    fun current data first => serial.replay current first, ?_⟩
  rintro recent who result earlier rfl
  obtain ⟨⟨w', reached⟩, task, at_task, concludes⟩ := concluded side consistent free reaches
  refine ⟨?_, ?_, ?_⟩
  · rintro e rfl
    rw [progress_lastRun] at concludes
    exact Progress.not_replaced_of_unwritten concludes
  · rintro modify data update rfl
    obtain rfl : task = .update modify := Option.some.inj (at_task.symm.trans update)
    obtain ⟨reading, before, -, -, wrote, -⟩ := concludes
    rw [progress_lastRun] at wrote
    exact Progress.replaced_of_wrote wrote
  · rintro data read rfl
    obtain rfl : task = .read := Option.some.inj (at_task.symm.trans read)
    obtain ⟨reading, before, found, finds, -, rfl⟩ := concludes
    obtain ⟨between, before, w'', parts, notBegun, reached, has⟩ :=
      found_in_manifest reached found finds
    exact ⟨between, before, w'', parts, notBegun, reached, (orderly reached).ordered.serial, has⟩

/-! ## Sessions in a given order -/

namespace World

/-- The next step of a session, answered by the disk; an idle session may begin a task. -/
def next? (w : World) (who : LockHolder) (begins : Option Task) : Option (Event × World) :=
  let goesOn := Function.update w.activity who
  match w.activity who with
  | .idle s => begins.map fun task =>
    (.began task, { w with activity := goesOn (.doing task (task.plan s)) })
  | .doing _ (.done (result, s)) => some (.ended result, { w with activity := goesOn (.idle s) })
  | .doing task (.access what next) =>
    let (answer, disk) := what.serve w.disk
    some (.did what answer, ⟨disk, goesOn (.doing task (next answer))⟩)

/-- What sessions do when they go on in the order of their names in a list. -/
def follow : List (LockHolder × Option Task) → Past × World → Past × World
  | [], reached => reached
  | (who, begins) :: orders, (past, w) =>
    match w.next? who begins with
    | some (event, w') => follow orders ((who, event) :: past, w')
    | none => follow orders (past, w)

variable {w w' : World}

lemma step_of_next? {who : LockHolder} {begins : Option Task} {event : Event}
    (next : w.next? who begins = some (event, w')) : Step w who event w' := by
  unfold next? at next
  split at next
  · next s idle =>
    obtain ⟨task, -, same⟩ := Option.map_eq_some_iff.1 next
    cases same
    exact .begin task idle
  · next busy =>
    cases next
    exact .finish busy
  · next busy =>
    cases next
    exact .access busy .served

lemma reaches_follow (orders : List (LockHolder × Option Task)) {past : Past}
    (before : Reaches w past w') :
    Reaches w (follow orders (past, w')).1 (follow orders (past, w')).2 := by
  induction orders generalizing past w' with
  | nil => exact before
  | cons order orders ih =>
    obtain ⟨who, begins⟩ := order
    rw [follow]
    split
    · next next => exact ih (before.step (step_of_next? next))
    · exact ih before

end World

def ManifestData.named (data : ManifestData) : ManifestData :=
  { data with admin := some ⟨"0x0A", none⟩ }

/-- While the first session names an admin, the second one finds the lock held; it reads then. -/
def Task.rivals : List (LockHolder × Option Task) :=
  let naming := Task.update fun data => .ok data.named
  [(1, some naming), (1, none), (1, none), (2, some naming), (1, none), (2, none), (2, none),
    (1, none), (2, none), (1, none), (1, none), (1, none), (2, none), (2, some .read),
    (2, none), (2, none), (2, none), (2, none), (2, none), (2, none)]

/-- The data in the end are what the first session named. -/
theorem named_data_remain :
    ∃ past w, Reaches (World.start .empty (Session.sharing "up" 5 (fun _ => 0) fun _ => 0)) past w ∧
      (2, .ended (.error (.lockContention "up/goerli.json.lock" 1))) ∈ past ∧
      (Past.turns past).map Turn.who = [2, 1] ∧
      dataOfReading "up/goerli.json" w.disk.readManifest = .ok ManifestData.empty.named := by
  have reaches := World.reaches_follow (w := World.start .empty
    (Session.sharing "up" 5 (fun _ => 0) fun _ => 0)) Task.rivals .start
  obtain ⟨-, -, replayed, -⟩ := updates_take_turns "up" 5 (fun _ => 0) (fun _ => 0)
    (d := .empty) (fun _ => rfl) rfl reaches
  have turns : Past.turns (World.follow Task.rivals ([], World.start .empty
      (Session.sharing "up" 5 (fun _ => 0) fun _ => 0))).1 =
      [⟨2, some .read, some (.text (textOfData ManifestData.empty.named)), none⟩,
        ⟨1, some (.update fun data => .ok data.named), some .absent,
          some (textOfData ManifestData.empty.named)⟩] := rfl
  rw [turns] at replayed
  refine ⟨_, _, reaches, List.mem_of_getElem? (i := 7) rfl, by rw [turns]; rfl, ?_⟩
  refine replayed (fun turn listed modify update data data' fits version modified => ?_) .empty rfl
  rcases List.mem_cons.1 listed with rfl | listed
  · cases update
  · obtain rfl := List.mem_singleton.1 listed
    cases update
    cases modified
    exact ⟨fits, version⟩

end UpgradeSafety
