import SectionStore.Provider.Memory
import SectionStore.Proofs.Store.Timing

/-!
# One alarm at a time

`AlarmRun` are the stores that come about when operations, alarms that go off, and calls with such
alarms take turns in any order, with a log of the alarms and of the commits that were attempted. An
operation that takes the alarm away attempts a commit (`Act.armed_or_attempts`), and a new alarm is
set only where none is armed. From this an induction on the run keeps `Tended`: the armed alarm is
pending, or has gone off and was not told of, and there are at most as many alarms as commits, and
the armed one. `oneAlarm_of_run` draws the conclusions.
-/

namespace SectionStore.Store

variable {W : Type}

/-! ### Runs -/

/-- What is done to a store apart from its alarms, and what its providers and its surroundings do. -/
inductive Act (W : Type) where
  | register (name : String) (file : Option FileId)
  /-- The providers are given data, or change in another way of their own. -/
  | change (f : W → W)
  /-- The device and the time change. -/
  | surroundings (disk : Disk → Disk) (clock : Clock → Clock)
  | write (force : Bool)
  | read
  | install (files : List StoreFile)
  | switch (files : List StoreFile)

def Act.run [ProviderHost W] : Act W → StoreM W Alarms Unit
  | .register name file => Store.register name file
  | .change f => modify fun s => { s with providers := f s.providers }
  | .surroundings disk clock => modify fun s => { s with disk := disk s.disk, clock := clock s.clock }
  | .write force => Store.write force
  | .read => Store.read
  | .install files => modify (·.setUserFiles files)
  | .switch files => switchUserFiles files

/-- How many commits an operation attempts. A forced write does if there is new data, a write that
waits or a buffer, a switch if a write waits. -/
def Act.attempts [ProviderHost W] (s : Store W) : Act W → Nat
  | .write true =>
    match s.holdings.refreshResult with
    | .error _ => 0
    | .ok isNew =>
      if isNew || s.isWaiting || s.holdings.refreshed.files.any (·.hasPending) then 1 else 0
  | .switch _ => if s.isWaiting then 1 else 0
  | _ => 0

/-- What has become of the alarms in a run. -/
structure AlarmLog where
  /-- The alarms that came to be pending, in order. -/
  set : List AlarmId
  /-- The alarms that went off. -/
  fired : List AlarmId
  /-- The alarms that the store was told of. -/
  told : List AlarmId
  /-- The number of commits that were attempted. -/
  commits : Nat

/-- The log after an operation that attempted commits and left the store `t` behind `s`. -/
def AlarmLog.note (log : AlarmLog) (s t : Store W) (attempts : Nat) : AlarmLog :=
  { log with
    set := log.set ++ t.alarms.ids.filter (· ∉ s.alarms.ids)
    commits := log.commits + attempts }

/-- The stores that come about, with their logs. The store may be told of any alarm that went off,
late, repeatedly or not at all. -/
inductive AlarmRun [ProviderHost W] : Store W → AlarmLog → Prop where
  | new (config : Config) (shared : StoreFile) (providers : W) (disk : Disk) (metrics : Metrics) :
      AlarmRun (.new config shared providers disk metrics) ⟨[], [], [], 0⟩
  | act {s : Store W} {log : AlarmLog} (run : AlarmRun s log) (a : Act W) :
      AlarmRun (after a.run s) (log.note s (after a.run s) (a.attempts s))
  | fire {s t : Store W} {log : AlarmLog} {id : AlarmId} (run : AlarmRun s log)
      (oldest : s.fireOldest? = some (id, t)) :
      AlarmRun t { log with fired := log.fired ++ [id] }
  | tell {s : Store W} {log : AlarmLog} {id : AlarmId} (run : AlarmRun s log)
      (fired : id ∈ log.fired) :
      AlarmRun (after (onAlarm id) s)
        { log with
          told := log.told ++ [id]
          commits := log.commits + if s.armed = some id then 1 else 0 }

/-! ### One operation -/

variable {s t : Store W} {log : AlarmLog}

section Providers

variable [ProviderHost W]

theorem Act.retimes (a : Act W) (s : Store W) : Retimes s (after a.run s) := by
  cases a with
  | register name file => exact retimes_register name file s
  | write force => exact retimes_write force s
  | read => exact retimes_read s
  | switch files => exact retimes_switchUserFiles files s
  | change | surroundings | install => exact .same rfl rfl

/-- A forced write commits what it has refreshed if it attempts a commit, and otherwise leaves the
alarm alone. -/
theorem write_true_attempts (s : Store W) :
    (Act.write true).attempts s = 1 ∧ write true s = commit s.refreshed ∨
      (Act.write true).attempts s = 0 ∧ s.isWaiting = false ∧ write true s = .ok () s.refreshed ∨
      (Act.write true).attempts s = 0 ∧ ∃ e, write true s = .error e s.refreshed := by
  have waiting : s.refreshed.isWaiting = s.isWaiting :=
    congrArg Option.isSome (armed_refreshed s)
  have buffered : s.refreshed.hasBuffered = s.holdings.refreshed.files.any (·.hasPending) :=
    congrArg (fun h => h.files.any (·.hasPending)) (holdings_refreshed s)
  rw [write_eq_refreshed]
  cases result : s.holdings.refreshResult with
  | error e => exact .inr (.inr ⟨by simp [Act.attempts, result], _, rfl⟩)
  | ok isNew =>
    simp only [if_true, waiting, buffered, Act.attempts, result]
    by_cases due : (isNew || s.isWaiting || s.holdings.refreshed.files.any (·.hasPending)) = true
    · left
      rw [if_pos due, if_pos due]
      exact ⟨rfl, rfl⟩
    · right
      left
      rw [if_neg due, if_neg due]
      simp only [Bool.or_eq_true, not_or, Bool.not_eq_true] at due
      exact ⟨rfl, due.1.2, rfl⟩

/-- What a switch does once no write waits any more. -/
def renewUserFiles (files : List StoreFile) : StoreM W Alarms Unit := do
  modify fun s =>
    { s with providers := resetAll s.registry (s.users.getD []) s.providers }.disarm
  modify (·.setUserFiles files)
  fun s => timedReading (resetAndReadAll s.registry s.disk files) s

/-- A switch commits if it attempts a commit, before it does anything else. -/
theorem switch_attempts (files : List StoreFile) (s : Store W) :
    (Act.switch files).attempts s = 1 ∧ s.isWaiting = true ∧
        switchUserFiles files s = (commit >>= fun _ => renewUserFiles files) s ∨
      (Act.switch files).attempts s = 0 ∧ s.isWaiting = false ∧
        switchUserFiles files s = renewUserFiles files s := by
  cases waiting : s.isWaiting with
  | false =>
    refine .inr ⟨by simp [Act.attempts, waiting], rfl, ?_⟩
    simp only [switchUserFiles, leaveUserFiles, run_bind, run_get, waiting]
    rfl
  | true =>
    refine .inl ⟨by simp [Act.attempts, waiting], rfl, ?_⟩
    simp only [switchUserFiles, leaveUserFiles, run_bind, run_get, waiting, if_true]
    cases commit s <;> rfl

/-- An operation leaves the armed alarm armed, or attempts a commit. -/
theorem Act.armed_or_attempts (a : Act W) {id : AlarmId} (armed : s.armed = some id) :
    (after a.run s).armed = some id ∨ a.attempts s = 1 := by
  have waiting : s.isWaiting = true := by rw [isWaiting, armed]; rfl
  cases a with
  | register name file => exact .inl ((armed_register name file s).trans armed)
  | change | surroundings | install => exact .inl armed
  | read =>
    left
    obtain ⟨providers, clock, metrics, same⟩ :=
      after_timedReading (readAll s.registry s.disk s.files)
        { s with providers := resetAll s.registry s.files s.providers }
    exact (congrArg Store.armed same).trans armed
  | switch files =>
    right
    rcases switch_attempts files s with ⟨once, -⟩ | ⟨-, idle, -⟩
    · exact once
    · rw [waiting] at idle
      cases idle
  | write force =>
    cases force with
    | false =>
      left
      obtain ⟨t, -, ⟨still, -⟩, run⟩ := write_eq false s
      have armed' := still.trans armed
      have kept : t.arm.armed = some id := by rw [arm, armed']; exact armed'
      rw [Act.run, after, run]
      cases s.holdings.refreshResult with
      | error e => exact armed'
      | ok isNew => cases isNew <;> assumption
    | true =>
      rcases write_true_attempts s with ⟨once, -⟩ | ⟨-, idle, -⟩ | ⟨-, e, run⟩
      · exact .inr once
      · rw [waiting] at idle
        cases idle
      · left
        rw [Act.run, after, run]
        exact (armed_refreshed s).trans armed

end Providers

/-- The store commits if it is told of the armed alarm, and does nothing if it is told of another
one. -/
theorem onAlarm_attempts (id : AlarmId) (s : Store W) :
    s.armed = some id ∧ onAlarm id s = commit { s with armed := none } ∨
      s.armed ≠ some id ∧ onAlarm id s = .ok () s := by
  by_cases armed : s.armed = some id
  · exact .inl ⟨armed, if_pos armed⟩
  · exact .inr ⟨armed, if_neg armed⟩

/-! ### Runs keep the alarm in one place -/

/-- The armed alarm, and no other, is pending, or it has gone off and the store was not told of it.
All alarms have numbers up to the last one, and as many commits were attempted, or one less while an
alarm is armed. -/
structure Tended (s : Store W) (log : AlarmLog) : Prop where
  sleeping : s.alarms.ids = [] ∨ s.alarms.ids = s.armed.toList
  once : (s.alarms.ids ++ log.fired).Nodup
  reported : ∀ id, s.armed = some id → id ∈ s.alarms.ids ++ log.fired
  untold : ∀ id, s.armed = some id → id ∉ log.told
  told : ∀ id ∈ log.told, id ∈ log.fired
  known : ∀ id ∈ s.alarms.ids ++ log.fired, id ∈ log.set
  counted : log.set = List.range' 1 s.alarms.scheduled
  bounded : s.alarms.scheduled ≤ log.commits + s.armed.toList.length

/-- Who goes off was the first of the pending alarms. -/
theorem fireOldest?_eq_some {id : AlarmId} (oldest : s.fireOldest? = some (id, t)) :
    ∃ alarms : Alarms, s.alarms.ids = id :: alarms.ids ∧
      alarms.scheduled = s.alarms.scheduled ∧ t = { s with alarms } := by
  simp only [fireOldest?, Alarms.fireOldest?] at oldest
  cases pending : s.alarms.pending with
  | nil =>
    rw [pending] at oldest
    cases oldest
  | cons alarm rest =>
    rw [pending] at oldest
    cases oldest
    exact ⟨{ s.alarms with pending := rest }, by rw [Alarms.ids, pending]; rfl, rfl, rfl⟩

theorem fireOldest?_of_single {id : AlarmId} (single : s.alarms.ids = [id]) :
    s.fireOldest? = some (id, { s with alarms := { s.alarms with pending := [] } }) := by
  obtain ⟨alarm, pending, rfl⟩ := List.map_eq_singleton_iff.1 single
  simp only [fireOldest?, Alarms.fireOldest?, pending]
  rfl

namespace Tended

/-- Nothing has come to be pending where the pending alarms are old. -/
theorem note_of_subset {attempts : Nat} (old : ∀ id ∈ t.alarms.ids, id ∈ s.alarms.ids) :
    log.note s t attempts = { log with commits := log.commits + attempts } := by
  have none : t.alarms.ids.filter (· ∉ s.alarms.ids) = [] :=
    List.filter_eq_nil_iff.2 fun id pending => by simpa using old id pending
  rw [AlarmLog.note, none, List.append_nil]

/-- Once no alarm is armed, none is pending either. -/
theorem disarmed {told : List AlarmId} {commits : Nat} (tended : Tended s log)
    (idle : t.armed = none) (ids : t.alarms.ids = [])
    (scheduled : t.alarms.scheduled = s.alarms.scheduled) (fired : ∀ id ∈ told, id ∈ log.fired)
    (bounded : s.alarms.scheduled ≤ commits) :
    Tended t { log with told := told, commits := commits } where
  sleeping := .inl ids
  once := by
    rw [ids]
    exact (List.nodup_append.1 tended.once).2.1
  reported id armed := by
    rw [idle] at armed
    cases armed
  untold id armed := by
    rw [idle] at armed
    cases armed
  told := fired
  known id inside := by
    rw [ids] at inside
    exact tended.known id (List.mem_append_right _ inside)
  counted := by rw [scheduled]; exact tended.counted
  bounded := by
    rw [scheduled, idle]
    exact bounded

/-- The alarm stays as it is. -/
theorem same {told : List AlarmId} {attempts : Nat} (tended : Tended s log)
    (armed : t.armed = s.armed) (alarms : t.alarms = s.alarms)
    (untold : ∀ id, s.armed = some id → id ∉ told) (fired : ∀ id ∈ told, id ∈ log.fired) :
    Tended t { log with told := told, commits := log.commits + attempts } where
  sleeping := by
    rw [armed, alarms]
    exact tended.sleeping
  once := by
    rw [alarms]
    exact tended.once
  reported := by
    rw [armed, alarms]
    exact tended.reported
  untold := by
    rw [armed]
    exact untold
  told := fired
  known := by
    rw [alarms]
    exact tended.known
  counted := by
    rw [alarms]
    exact tended.counted
  bounded := by
    rw [armed, alarms]
    have := tended.bounded
    simp only
    omega

/-- A new alarm is set where none was armed. -/
theorem set {attempts : Nat} (tended : Tended s log) (idle : s.armed = none)
    (armed : t.armed = some s.alarms.nextId) (ids : t.alarms.ids = [s.alarms.nextId])
    (scheduled : t.alarms.scheduled = s.alarms.nextId) :
    Tended t (log.note s t attempts) := by
  have none : s.alarms.ids = [] := waiting_of_idle tended.sleeping idle
  have noted : log.note s t attempts =
      { log with
        set := log.set ++ [s.alarms.nextId]
        commits := log.commits + attempts } := by
    simp [AlarmLog.note, ids, none]
  have fresh : s.alarms.nextId ∉ log.set := by
    rw [tended.counted, List.mem_range'_1]
    simp only [Alarms.nextId]
    omega
  have fired {id : AlarmId} (inside : id ∈ log.fired) : id ∈ log.set :=
    tended.known id (List.mem_append_right _ inside)
  rw [noted]
  constructor
  case sleeping =>
    right
    rw [ids, armed]
    rfl
  case once =>
    rw [ids]
    exact List.nodup_cons.2
      ⟨fun again => fresh (fired again), (List.nodup_append.1 tended.once).2.1⟩
  case reported =>
    intro id armed'
    obtain rfl := Option.some.inj (armed.symm.trans armed')
    rw [ids]
    exact List.mem_append_left _ List.mem_cons_self
  case untold =>
    intro id armed' told
    obtain rfl := Option.some.inj (armed.symm.trans armed')
    exact fresh (fired (tended.told _ told))
  case told => exact tended.told
  case known =>
    intro id inside
    rw [ids] at inside
    rcases List.mem_cons.1 inside with rfl | inside
    · exact List.mem_append_right _ List.mem_cons_self
    · exact List.mem_append_left _ (fired inside)
  case counted =>
    rw [tended.counted, scheduled, Alarms.nextId, List.range'_1_concat, Nat.add_comm 1]
  case bounded =>
    have := tended.bounded
    simp only [idle, armed, scheduled, Alarms.nextId, Option.toList_none, Option.toList_some,
      List.length_nil, List.length_singleton] at this ⊢
    omega

theorem act [ProviderHost W] (tended : Tended s log) (a : Act W) :
    Tended (after a.run s) (log.note s (after a.run s) (a.attempts s)) := by
  rcases (a.retimes s).cases_waiting tended.sleeping trivial with
    ⟨armed, alarms⟩ | ⟨idle, ids, scheduled⟩ | ⟨idle, armed, ids, scheduled⟩
  · rw [note_of_subset (by rw [alarms]; exact fun _ => id)]
    exact tended.same armed alarms tended.untold tended.told
  · rw [Alarms.waiting_eq] at ids
    rw [note_of_subset (by rw [ids]; exact List.forall_mem_nil _)]
    refine tended.disarmed idle ids scheduled tended.told ?_
    -- if the operation took the alarm away, it attempted a commit
    have bounded := tended.bounded
    cases before : s.armed with
    | none =>
      rw [before] at bounded
      exact Nat.le_trans bounded (Nat.le_add_right _ _)
    | some id =>
      rw [before] at bounded
      rcases a.armed_or_attempts before with still | once
      · rw [idle] at still
        cases still
      · rw [once]
        exact bounded
  · exact tended.set idle armed ids scheduled

/-- The oldest alarm goes off: it was the only one, and the store was not told of it yet. -/
theorem fire {id : AlarmId} (tended : Tended s log) (oldest : s.fireOldest? = some (id, t)) :
    Tended t { log with fired := log.fired ++ [id] } := by
  obtain ⟨alarms, pending, scheduled, rfl⟩ := fireOldest?_eq_some oldest
  have first : id ∈ s.alarms.ids := pending ▸ List.mem_cons_self
  obtain ⟨single, armed⟩ := waiting_of_mem (s := s) tended.sleeping first
  rw [Alarms.waiting_eq] at single
  have none : alarms.ids = [] := (List.cons.inj (pending.symm.trans single)).2
  have once := tended.once
  rw [single, List.singleton_append] at once
  have all : ∀ other ∈ log.fired ++ [id], other ∈ s.alarms.ids ++ log.fired := by
    intro other inside
    rw [single]
    exact List.perm_append_comm.subset inside
  constructor
  case sleeping => exact .inl none
  case once =>
    simp only [none, List.nil_append]
    exact (List.perm_append_comm.nodup_iff).2 once
  case reported =>
    intro other armed'
    obtain rfl := Option.some.inj (armed.symm.trans armed')
    simp
  case untold => exact tended.untold
  case told => exact fun other told => List.mem_append_left _ (tended.told other told)
  case known =>
    intro other inside
    simp only [none, List.nil_append] at inside
    exact tended.known other (all other inside)
  case counted => simp only [scheduled, tended.counted]
  case bounded => simpa only [scheduled] using tended.bounded

/-- The store is told of an alarm: of the armed one, and commits, or of another one. -/
theorem tell {id : AlarmId} (tended : Tended s log) (fired : id ∈ log.fired) :
    Tended (after (onAlarm id) s)
      { log with
        told := log.told ++ [id]
        commits := log.commits + if s.armed = some id then 1 else 0 } := by
  have known : ∀ other ∈ log.told ++ [id], other ∈ log.fired := by
    intro other inside
    rcases List.mem_append.1 inside with told | same
    · exact tended.told other told
    · rwa [List.mem_singleton.1 same]
  rcases onAlarm_attempts id s with ⟨armed, -⟩ | ⟨stale, ignored⟩
  · obtain ⟨idle, alarms⟩ := timing_onAlarm armed
    have none : s.alarms.ids = [] := by
      rcases tended.sleeping with none | pending
      · exact none
      · have once := tended.once
        rw [pending, armed] at once
        exact absurd fired (List.nodup_cons.1 once).1
    have bounded := tended.bounded
    rw [armed] at bounded
    rw [if_pos armed]
    exact tended.disarmed idle (by rw [alarms, none]) (by rw [alarms]) known bounded
  · have same : after (onAlarm id) s = s := by rw [after, ignored]
    rw [same, if_neg stale]
    refine tended.same rfl rfl (fun other armed' inside => ?_) known
    rcases List.mem_append.1 inside with told | same
    · exact tended.untold other armed' told
    · rw [List.mem_singleton.1 same] at armed'
      exact stale armed'

theorem new (config : Config) (shared : StoreFile) (providers : W) (disk : Disk)
    (metrics : Metrics) :
    Tended (.new config shared providers disk metrics) ⟨[], [], [], 0⟩ where
  sleeping := .inl rfl
  once := .nil
  reported id armed := by cases armed
  untold id armed := by cases armed
  told := List.forall_mem_nil _
  known := List.forall_mem_nil _
  counted := rfl
  bounded := Nat.le_refl _

end Tended

theorem AlarmRun.tended [ProviderHost W] (run : AlarmRun s log) : Tended s log := by
  induction run with
  | new config shared providers disk metrics => exact .new config shared providers disk metrics
  | act run a ih => exact ih.act a
  | fire run oldest ih => exact ih.fire oldest
  | tell run fired ih => exact ih.tell fired

/-! ### What holds in all runs -/

/-- At most one alarm is pending, and everything else about alarms is settled by the one that the
store waits for. -/
structure OneAlarm (s : Store W) (log : AlarmLog) : Prop where
  single : s.alarms.pending.length ≤ 1
  /-- A pending alarm is the one that the store waits for. -/
  held : ∀ alarm ∈ s.alarms.pending, s.armed = some alarm.id
  /-- The alarm that the store waits for is pending, or has gone off and was not told of, and not
  both. -/
  whereabouts : ∀ id, s.armed = some id →
    (id ∈ s.alarms.ids ∧ id ∉ log.fired) ∨ (id ∉ s.alarms.ids ∧ id ∈ log.fired ∧ id ∉ log.told)
  /-- No number is given to two alarms, and no alarm goes off twice. -/
  distinct : log.set.Nodup ∧ log.fired.Nodup ∧ ∀ id ∈ s.alarms.ids ++ log.fired, id ∈ log.set
  /-- The log has all the alarms that were ever set. -/
  complete : log.set.length = s.alarms.scheduled
  /-- The store does not change when it is told of an alarm that it does not wait for. -/
  stale : ∀ id, s.armed ≠ some id → onAlarm id s = .ok () s
  /-- One alarm more than commits, at most, has ever been set. -/
  bounded : s.alarms.scheduled ≤ log.commits + 1

/-- In all runs of a store, with failures of any kind, there is one alarm at a time. -/
theorem oneAlarm_of_run [ProviderHost W] (run : AlarmRun s log) : OneAlarm s log := by
  have tended := run.tended
  obtain ⟨-, once, apart⟩ := List.nodup_append.1 tended.once
  constructor
  case single =>
    have length : s.alarms.pending.length = s.alarms.ids.length := (List.length_map _).symm
    rw [length]
    rcases tended.sleeping with none | armed
    · simp [none]
    · rw [armed]
      cases s.armed <;> simp
  case held =>
    exact fun alarm pending => (waiting_of_mem tended.sleeping (List.mem_map_of_mem pending)).2
  case whereabouts =>
    intro id armed
    by_cases fired : id ∈ log.fired
    · exact .inr ⟨fun pending => apart id pending id fired rfl, fired, tended.untold id armed⟩
    · rcases List.mem_append.1 (tended.reported id armed) with pending | fired'
      · exact .inl ⟨pending, fired⟩
      · exact absurd fired' fired
  case distinct =>
    refine ⟨?_, once, tended.known⟩
    rw [tended.counted]
    exact List.nodup_range'
  case complete => rw [tended.counted, List.length_range']
  case stale => exact fun id => onAlarm_of_stale
  case bounded =>
    refine Nat.le_trans tended.bounded (Nat.add_le_add_left ?_ _)
    cases s.armed <;> simp

/-- A store whose provider to be has been given data. -/
def beforeAlarms : Store Memory :=
  .new .default (.new ⟨"s.xml"⟩ .sharedGeneral none)
    (Memory.empty.update "A" (·.set (Utf8.encode ['1']))) (.ofFiles .new) (.new false)

/-- The provider has been registered, and a write waits for the first alarm. -/
def whileAlarmed : Store Memory :=
  after (Act.write false).run (after (Act.register "A" (some .sharedGeneral)).run beforeAlarms)

/-- The alarm has gone off, but a forced write came before the store was told. Then another write has
set a new alarm. -/
def afterAlarm : Store Memory :=
  let fired := { whileAlarmed with alarms := { whileAlarmed.alarms with pending := [] } }
  after (Act.write false).run
    (after (Act.change fun w => w.update "A" (·.set (Utf8.encode ['2']))).run
      (after (Act.write true).run fired))

/-- The store waits for the second alarm and is told of the first one. -/
theorem oneAlarm_of_run_toldLate :
    ∃ log, AlarmRun (after (onAlarm 1) afterAlarm) log ∧
      OneAlarm (after (onAlarm 1) afterAlarm) log ∧
      log.set = [1, 2] ∧ log.fired = [1] ∧ log.told = [1] ∧ log.commits = 1 ∧
      (after (onAlarm 1) afterAlarm).armed = some 2 := by
  have start : AlarmRun beforeAlarms ⟨[], [], [], 0⟩ := .new _ _ _ _ _
  have waiting := (start.act (.register "A" (some .sharedGeneral))).act (.write false)
  have single : whileAlarmed.alarms.ids = [1] := by decide +kernel
  have run := ((((waiting.fire (fireOldest?_of_single single)).act (.write true)).act
    (.change fun w => w.update "A" (·.set (Utf8.encode ['2'])))).act (.write false)).tell
      (List.mem_append_right _ List.mem_cons_self)
  refine ⟨_, run, oneAlarm_of_run run, ?_⟩
  decide +kernel

end SectionStore.Store
