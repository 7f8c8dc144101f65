import SectionStore.Proofs.Service.Shutdown
import SectionStore.Proofs.Service.Timers

/-!
# Wake-ups of a service

The alarm that a store waits for is known in four places: the store has its number, a task sleeps for
it, the table of timers has the handle of the task, and once it has gone off its message is on the
queue. `Reached` are the services that come about when requests, timers and the task of the service
take turns in any order, with the alarms that have caused a commit. An operation of the store leaves
the alarm alone, cancels it, or sets a new one where none is armed (`Store.Retimes`), and a cancelled
alarm has no task any more since the table has every task that sleeps (`Timers.Sound`). So as long as
somebody can be told, a task sleeps for the armed alarm or its message is on the queue, once and not
both, and every other message of an alarm is stale (`Timed`). Stale messages change nothing, and no
alarm commits twice (`wake_ups`).
-/

namespace SectionStore

/-- The alarm that a message reports. -/
def Message.alarm? : Message → Option AlarmId
  | .alarm id => some id
  | .request _ => none

/-! ### Where the alarm is -/

/-- A task sleeps for the alarm that the store waits for, and no other does. -/
structure Store.IsTimed {W : Type} (s : Store W Timers) : Prop where
  sound : s.alarms.Sound
  waits : s.alarms.ids = s.armed.toList
  known : ∀ id, s.armed = some id → id ≤ s.alarms.lastId

theorem Store.isTimed_new {W : Type} (config : Config) (shared : StoreFile) (providers : W)
    (disk : Disk) (metrics : Metrics) :
    IsTimed (.new config shared providers disk metrics : Store W Timers) :=
  ⟨Timers.sound_new, rfl, fun _ h => by cases h⟩

namespace Service

variable {W : Type}

/-- The alarms on the queue. -/
def fired (service : Service W) : List AlarmId :=
  service.queue.filterMap (·.alarm?)

/-- The alarm that the next step commits for. -/
def commitsNext (service : Service W) : List AlarmId :=
  match service.queue with
  | .alarm id :: _ =>
    if service.isRunning = true ∧ service.store.armed = some id then [id] else []
  | _ => []

/-- Only the armed alarm has a task that sleeps, and the table has its handle. While somebody can be
told, its task sleeps or its message is on the queue, and no alarm is in both places, or on the queue
twice. The alarms that have caused a commit are others. No task outlives the service. -/
structure Timed (service : Service W) (commits : List AlarmId) : Prop where
  sound : service.store.alarms.Sound
  sleeping : service.store.alarms.ids = [] ∨
    service.store.alarms.ids = service.store.armed.toList
  once : (service.store.alarms.ids ++ service.fired).Nodup
  reported : service.isRunning = true → service.isHeld = true → ∀ id,
    service.store.armed = some id → id ∈ service.store.alarms.ids ++ service.fired
  known : ∀ id ∈ service.fired ++ commits, id ≤ service.store.alarms.lastId
  unspent : ∀ id, service.store.armed = some id →
    id ≤ service.store.alarms.lastId ∧ id ∉ commits
  distinct : commits.Nodup
  ended : service.isRunning = false → service.store.alarms.ids = []

variable {service : Service W} {commits : List AlarmId} {store : Store W Timers}

theorem mem_fired_iff {id : AlarmId} : id ∈ service.fired ↔ Message.alarm id ∈ service.queue := by
  rw [fired, List.mem_filterMap]
  constructor
  · rintro ⟨message, inside, reports⟩
    cases message with
    | request request => cases reports
    | alarm other =>
      cases reports
      exact inside
  · exact fun inside => ⟨_, inside, rfl⟩

theorem fired_of_arrived {id : AlarmId} {queue : List Message}
    (arrived : service.queue = .alarm id :: queue) :
    service.fired = id :: queue.filterMap (·.alarm?) := by
  rw [fired, arrived]
  rfl

theorem timed_new (timed : store.IsTimed) : Timed (.new store) [] where
  sound := timed.sound
  sleeping := .inr timed.waits
  once := by
    have single : store.armed.toList.Nodup := by cases store.armed <;> simp
    simpa [new, fired, timed.waits] using single
  reported _ _ id armed := by
    simp only [new] at armed
    simp [new, timed.waits, armed]
  known := by simp [new, fired]
  unspent id armed := ⟨timed.known id armed, by simp⟩
  distinct := .nil
  ended running := by cases running

/-- A service with a store that waits for no alarm. -/
theorem Timed.of_idle (sound : service.store.alarms.Sound) (idle : service.store.armed = none)
    (none : service.store.alarms.ids = []) (once : service.fired.Nodup)
    (known : ∀ id ∈ service.fired ++ commits, id ≤ service.store.alarms.lastId)
    (distinct : commits.Nodup) : Timed service commits where
  sound := sound
  sleeping := .inl none
  once := by
    rw [none]
    exact once
  reported _ _ id armed := by
    rw [idle] at armed
    cases armed
  known := known
  unspent id armed := by
    rw [idle] at armed
    cases armed
  distinct := distinct
  ended _ := none

/-- Only the alarm, the messages of alarms and the end of a service matter. -/
theorem Timed.congr {other : Service W} (timed : Timed service commits)
    (armed : other.store.armed = service.store.armed)
    (alarms : other.store.alarms = service.store.alarms) (fired : other.fired = service.fired)
    (running : other.isRunning = service.isRunning)
    (held : other.isHeld = true → service.isHeld = true) : Timed other commits where
  sound := alarms ▸ timed.sound
  sleeping := by
    rw [armed, alarms]
    exact timed.sleeping
  once := by
    rw [alarms, fired]
    exact timed.once
  reported running' held' := by
    rw [armed, alarms, fired]
    exact timed.reported (running ▸ running') (held held')
  known := by
    rw [alarms, fired]
    exact timed.known
  unspent := by
    rw [armed, alarms]
    exact timed.unspent
  distinct := timed.distinct
  ended := by
    rw [running, alarms]
    exact timed.ended

theorem Timed.nodup_fired (timed : Timed service commits) : service.fired.Nodup :=
  (List.nodup_append.1 timed.once).2.1

/-! ### Steps -/

/-- Operations of the store keep the alarm where it belongs. -/
theorem Timed.retimed (timed : Timed service commits) (running : service.isRunning = true)
    (retimes : service.store.Retimes store) : Timed { service with store } commits := by
  have sound : store.alarms.Sound := retimes.sound timed.sound
  rcases retimes.cases_waiting timed.sleeping timed.sound with
    ⟨armed, alarms⟩ | ⟨idle, ids, last⟩ | ⟨idle, armed, ids, last⟩
  · exact timed.congr armed alarms rfl rfl id
  · refine .of_idle sound idle ids timed.nodup_fired (fun id inside => ?_) timed.distinct
    exact Nat.le_trans (timed.known id inside) (Nat.le_of_eq last.symm)
  · rw [Timers.waiting_eq] at ids
    -- the number of the new alarm has not been used before
    have fresh : ∀ id ∈ service.fired ++ commits, id < LawfulScheduler.lastId store.alarms :=
      fun id inside => last ▸ Nat.lt_succ_of_le (timed.known id inside)
    rw [← last] at armed ids
    constructor
    case sound => exact sound
    case sleeping =>
      right
      simp only [ids, armed, Option.toList_some]
    case once =>
      simp only [ids, fired]
      refine List.nodup_cons.2 ⟨fun again => ?_, timed.nodup_fired⟩
      exact Nat.lt_irrefl _ (fresh _ (List.mem_append_left _ again))
    case reported =>
      intro _ _ id armed'
      simp only [armed, Option.some.injEq] at armed'
      simp [ids, armed']
    case known => exact fun id inside => Nat.le_of_lt (fresh id inside)
    case unspent =>
      intro id armed'
      obtain rfl := Option.some.inj (armed.symm.trans armed')
      exact ⟨Nat.le_refl _, fun again => Nat.lt_irrefl _ (fresh _ (List.mem_append_right _ again))⟩
    case distinct => exact timed.distinct
    case ended =>
      intro ended
      rw [running] at ended
      cases ended

theorem timed_send (request : Request) (timed : Timed service commits) :
    Timed (service.send request) commits := by
  unfold send
  split
  · refine timed.congr rfl rfl ?_ rfl id
    simp [fired, Message.alarm?]
  · exact timed

theorem timed_dropHandle (timed : Timed service commits) : Timed service.dropHandle commits :=
  timed.congr rfl rfl rfl rfl fun held => by cases held

/-- A task that wakes reports its alarm on the queue, if somebody can be told. -/
theorem expire_of_wake {id : AlarmId} {task : TaskId} {woken : Timers}
    (wakes : service.store.alarms.wake? task = some (id, woken)) :
    (service.expire task).store = { service.store with alarms := woken } ∧
      (service.expire task).fired =
        service.fired ++ (if service.isRunning && service.isHeld then [id] else []) ∧
      (service.expire task).isRunning = service.isRunning ∧
      (service.expire task).isHeld = service.isHeld := by
  rw [expire, wakes]
  refine ⟨rfl, ?_, rfl, rfl⟩
  cases service.isRunning && service.isHeld <;> simp [fired, Message.alarm?]

/-- The task that wakes was the only one that slept, and slept for the armed alarm. -/
theorem Timed.wake {id : AlarmId} {task : TaskId} {woken : Timers} (timed : Timed service commits)
    (wakes : service.store.alarms.wake? task = some (id, woken)) :
    service.store.armed = some id ∧ service.store.alarms.ids = [id] ∧
      woken.Sound ∧ woken.ids = [] ∧ woken.lastId = service.store.alarms.lastId := by
  obtain ⟨⟨alarm, found, rfl⟩, rfl⟩ := Timers.wake?_eq_some wakes
  have awake : TaskState.ended ≠ .sleeping := by decide
  have sleeps : alarm.id ∈ service.store.alarms.ids := Timers.mem_ids_iff.2 ⟨task, alarm, found, rfl⟩
  obtain ⟨single, armed⟩ := Store.waiting_of_mem (s := service.store) timed.sleeping sleeps
  rw [Timers.waiting_eq] at single
  refine ⟨armed, single, timed.sound.settle awake task, ?_, rfl⟩
  rw [timed.sound.ids_settle awake (timed.sound.held task alarm found), single]
  simp

theorem timed_expire (task : TaskId) (timed : Timed service commits) :
    Timed (service.expire task) commits := by
  cases wakes : service.store.alarms.wake? task with
  | none =>
    rw [expire, wakes]
    exact timed
  | some result =>
    obtain ⟨id, woken⟩ := result
    obtain ⟨store, told, running, held⟩ := expire_of_wake wakes
    obtain ⟨armed, single, sound, none, last⟩ := timed.wake wakes
    have once := timed.once
    rw [single, List.singleton_append] at once
    constructor
    case sound =>
      rw [store]
      exact sound
    case sleeping =>
      rw [store]
      exact .inl none
    case once =>
      rw [store, none, told, List.nil_append]
      cases service.isRunning && service.isHeld with
      | true => exact (List.perm_append_comm.nodup_iff).2 once
      | false => simpa using timed.nodup_fired
    case reported =>
      intro running' held' other armed'
      rw [store] at armed'
      obtain rfl : id = other := Option.some.inj (armed.symm.trans armed')
      rw [told, running.symm.trans running', held.symm.trans held']
      simp
    case known =>
      intro other inside
      rw [store]
      simp only [last]
      rw [told] at inside
      rcases List.mem_append.1 inside with reported | spent
      · rcases List.mem_append.1 reported with before | now
        · exact timed.known other (List.mem_append_left _ before)
        · obtain rfl : other = id := by
            split at now
            · exact List.mem_singleton.1 now
            · cases now
          exact (timed.unspent other armed).1
      · exact timed.known other (List.mem_append_right _ spent)
    case unspent =>
      rw [store]
      simp only [last]
      exact timed.unspent
    case distinct => exact timed.distinct
    case ended =>
      rw [store]
      exact fun _ => none

/-- A service that has ended has nothing on the queue, and all tasks were aborted that slept. -/
theorem timed_stop (timed : Timed service commits) : Timed service.stop commits where
  sound := timed.sound.drop
  sleeping := .inl (Timers.ids_drop timed.sound)
  once := by
    rw [stop, Timers.ids_drop timed.sound]
    exact .nil
  reported running := by cases running
  known id inside := timed.known id (List.mem_append_right _ inside)
  unspent := timed.unspent
  distinct := timed.distinct
  ended _ := Timers.ids_drop timed.sound

/-- A message of the armed alarm spends it. -/
theorem timed_armed {id : AlarmId} {queue : List Message} (timed : Timed service commits)
    (arrived : service.queue = .alarm id :: queue) (armed : service.store.armed = some id) :
    Timed { service with store := Store.after (Store.onAlarm id) service.store, queue }
      (commits ++ [id]) := by
  have fired := fired_of_arrived arrived
  obtain ⟨idle, alarms⟩ := Store.timing_onAlarm armed
  obtain ⟨known, unspent⟩ := timed.unspent id armed
  have nodup := timed.nodup_fired
  rw [fired] at nodup
  refine .of_idle (alarms ▸ timed.sound) idle ?_ (List.nodup_cons.1 nodup).2 ?_ ?_
  · -- the task of an alarm on the queue does not sleep
    rw [alarms]
    rcases timed.sleeping with none | sleeping
    · exact none
    · have once := timed.once
      rw [sleeping, armed, fired] at once
      simp at once
  · intro other inside
    rw [alarms]
    rcases List.mem_append.1 inside with reported | spent
    · refine timed.known other (List.mem_append_left _ ?_)
      rw [fired]
      exact List.mem_cons_of_mem _ reported
    · rcases List.mem_append.1 spent with before | now
      · exact timed.known other (List.mem_append_right _ before)
      · exact List.mem_singleton.1 now ▸ known
  · refine List.nodup_append.2 ⟨timed.distinct, by simp, ?_⟩
    rintro other before _ now rfl
    exact unspent (List.mem_singleton.1 now ▸ before)

/-- A stale message is only taken off the queue. -/
theorem timed_stale {id : AlarmId} {queue : List Message} (timed : Timed service commits)
    (arrived : service.queue = .alarm id :: queue) (stale : service.store.armed ≠ some id) :
    Timed { service with queue } commits := by
  have fired := fired_of_arrived arrived
  have rest : (queue.filterMap (·.alarm?)).Sublist service.fired := by
    rw [fired]
    exact List.sublist_cons_self _ _
  constructor
  case sound => exact timed.sound
  case sleeping => exact timed.sleeping
  case once => exact timed.once.sublist (rest.append_left _)
  case reported =>
    intro running held other armed
    have somewhere := timed.reported running held other armed
    rw [fired] at somewhere
    rcases List.mem_append.1 somewhere with sleeping | reported
    · exact List.mem_append_left _ sleeping
    · rcases List.mem_cons.1 reported with rfl | later
      · exact absurd armed stale
      · exact List.mem_append_right _ later
  case known =>
    intro other inside
    rcases List.mem_append.1 inside with reported | spent
    · exact timed.known other (List.mem_append_left _ (rest.subset reported))
    · exact timed.known other (List.mem_append_right _ spent)
  case unspent => exact timed.unspent
  case distinct => exact timed.distinct
  case ended => exact timed.ended

variable [ProviderHost W]

/-- What answering a request does to the service: an operation of its store, and the end if the
request asks for it. -/
theorem answer_cases (request : Request) (service : Service W) :
    ∃ store, service.store.Retimes store ∧
      ((answer request service).2 = { service with store } ∨
        (answer request service).2 = stop { service with store }) := by
  cases request with
  | register name file =>
    exact ⟨_, Store.retimes_register name file _, .inl (operate_snd _ service)⟩
  | setUserFiles files => exact ⟨service.store.setUserFiles files, .same rfl rfl, .inl rfl⟩
  | switchUserFiles files =>
    exact ⟨_, Store.retimes_switchUserFiles files _, .inl (operate_snd _ service)⟩
  | write force => exact ⟨_, Store.retimes_write force _, .inl (operate_snd _ service)⟩
  | read => exact ⟨_, Store.retimes_read _, .inl (operate_snd _ service)⟩
  | isPresent => exact ⟨service.store, .same rfl rfl, .inl rfl⟩
  | setVerbose verbose => exact ⟨service.store.setVerbose verbose, .same rfl rfl, .inl rfl⟩
  | dump => exact ⟨service.store, .same rfl rfl, .inl rfl⟩
  | shutdown =>
    exact ⟨_, Store.retimes_write true _, .inr (congrArg stop (operate_snd _ service))⟩

theorem timed_answer (request : Request) (timed : Timed service commits)
    (running : service.isRunning = true) : Timed (answer request service).2 commits := by
  obtain ⟨store, retimes, same | same⟩ := answer_cases request service <;> rw [same]
  · exact timed.retimed running retimes
  · exact timed_stop (timed.retimed running retimes)

/-- The message of an alarm causes a commit if it is the armed one, and nothing otherwise. -/
theorem step_of_alarm {id : AlarmId} {queue : List Message} (running : service.isRunning = true)
    (arrived : service.queue = .alarm id :: queue) :
    (service.store.armed = some id ∧ service.commitsNext = [id] ∧
        service.step.2 =
          { service with store := Store.after (Store.onAlarm id) service.store, queue }) ∨
      service.store.armed ≠ some id ∧ service.commitsNext = [] ∧
        service.step = (none, { service with queue }) := by
  have taken : service.step =
      (none, { service with store := Store.after (Store.onAlarm id) service.store, queue }) := by
    rw [step, if_pos running, arrived]
    simp only [operate_snd]
  rw [taken, commitsNext, arrived]
  by_cases armed : service.store.armed = some id
  · exact .inl ⟨armed, if_pos ⟨running, armed⟩, rfl⟩
  · refine .inr ⟨armed, if_neg fun both => armed both.2, ?_⟩
    rw [Store.after, Store.onAlarm_of_stale armed]

theorem timed_step (timed : Timed service commits) :
    Timed service.step.2 (commits ++ service.commitsNext) := by
  cases running : service.isRunning with
  | false =>
    have nothing : service.commitsNext = [] := by
      unfold commitsNext
      split <;> simp [running]
    simpa [step, running, nothing] using timed
  | true =>
    cases arrived : service.queue with
    | nil =>
      have nothing : service.commitsNext = [] := by rw [commitsNext, arrived]
      rw [nothing, List.append_nil, step, if_pos running, arrived]
      cases held : service.isHeld with
      | true => exact timed
      | false =>
        simp only [operate_snd]
        exact timed_stop (timed.retimed running (Store.retimes_write true service.store))
    | cons message queue =>
      cases message with
      | request request =>
        have nothing : service.commitsNext = [] := by rw [commitsNext, arrived]
        rw [nothing, List.append_nil, step, if_pos running, arrived]
        refine timed_answer request (timed.congr rfl rfl ?_ rfl id) running
        rw [fired, fired, arrived]
        rfl
      | alarm id =>
        rcases step_of_alarm running arrived with
          ⟨armed, committing, taken⟩ | ⟨stale, nothing, taken⟩
        · rw [taken, committing]
          exact timed_armed timed arrived armed
        · rw [taken, nothing, List.append_nil]
          exact timed_stale timed arrived stale

/-! ### Runs -/

/-- The services that are reached when clients, timers and the task take turns in any order, with
the alarms that have caused a commit. Meanwhile providers, disk and clock change in any way. -/
inductive Reached : Service W → List AlarmId → Prop where
  | start {store : Store W Timers} (timed : store.IsTimed) : Reached (.new store) []
  | send {service : Service W} {commits : List AlarmId} (request : Request)
      (reached : Reached service commits) : Reached (service.send request) commits
  | expire {service : Service W} {commits : List AlarmId} (task : TaskId)
      (reached : Reached service commits) : Reached (service.expire task) commits
  | dropHandle {service : Service W} {commits : List AlarmId}
      (reached : Reached service commits) : Reached service.dropHandle commits
  | change {service : Service W} {commits : List AlarmId} (providers : W) (disk : Disk)
      (clock : Clock) (reached : Reached service commits) :
      Reached { service with store := { service.store with providers, disk, clock } } commits
  | step {service : Service W} {commits : List AlarmId} (reached : Reached service commits) :
      Reached service.step.2 (commits ++ service.commitsNext)

theorem Reached.timed (reached : Reached service commits) : Timed service commits := by
  induction reached with
  | start timed => exact timed_new timed
  | send request _ ih => exact timed_send request ih
  | expire task _ ih => exact timed_expire task ih
  | dropHandle _ ih => exact timed_dropHandle ih
  | change providers disk clock _ ih =>
    exact ih.congr rfl rfl rfl rfl id
  | step _ ih => exact timed_step ih

/-- No wake-up is lost or goes astray. While the service runs and there is a handle to it, a task
sleeps for the armed alarm or the message of the alarm is on the queue, and not both. No message is on
the queue twice. No other task sleeps, the table has the handle of the one that does, and none sleeps
once the service has ended. The message of the armed alarm causes a commit, any other one changes
neither the store nor a file, and no alarm causes two commits. -/
theorem wake_ups (reached : Reached service commits) :
    (service.isRunning = true → service.isHeld = true → ∀ id, service.store.armed = some id →
        ((∃ alarm ∈ service.store.alarms.sleeping, alarm.id = id) ↔
          Message.alarm id ∉ service.queue)) ∧
      (∀ id, service.fired.count id ≤ 1) ∧
      (∀ task alarm, service.store.alarms.sleeping? task = some alarm →
        service.store.armed = some alarm.id ∧
          service.store.alarms.table.get? alarm.id = some task) ∧
      service.store.alarms.sleeping.length ≤ 1 ∧
      (service.isRunning = false → service.store.alarms.sleeping = []) ∧
      (service.isRunning = true → ∀ id queue, service.queue = .alarm id :: queue →
        (service.store.armed = some id ∧ service.commitsNext = [id] ∧
            service.step.2.store.holdings = service.store.holdings.committed) ∨
          service.store.armed ≠ some id ∧ service.commitsNext = [] ∧
            service.step = (none, { service with queue })) ∧
      commits.Nodup := by
  have timed := reached.timed
  have ids := Timers.map_sleeping service.store.alarms
  refine ⟨fun running held id armed => ?_, fun id => ?_, fun task alarm found => ?_, ?_,
    fun ended => ?_, fun running id queue arrived => ?_, timed.distinct⟩
  · rw [← List.mem_map, ids, ← mem_fired_iff]
    have somewhere := timed.reported running held id armed
    have once := (List.nodup_append.1 timed.once).2.2
    constructor
    · exact fun sleeping reported => once id sleeping id reported rfl
    · exact fun unreported => (List.mem_append.1 somewhere).resolve_right unreported
  · exact List.nodup_iff_count.1 timed.nodup_fired id
  · have sleeps := Timers.mem_ids_iff.2 ⟨task, alarm, found, rfl⟩
    exact ⟨(Store.waiting_of_mem (s := service.store) timed.sleeping sleeps).2,
      TaskTable.get?_eq_some_iff.2 (timed.sound.held task alarm found)⟩
  · have length := congrArg List.length ids
    rw [List.length_map] at length
    rw [length]
    rcases timed.sleeping with none | armed
    · simp [none]
    · rw [armed]
      cases service.store.armed <;> simp
  · rw [timed.ended ended, List.map_eq_nil_iff] at ids
    exact ids
  · rcases step_of_alarm running arrived with ⟨armed, committing, taken⟩ | stale
    · refine .inl ⟨armed, committing, ?_⟩
      rw [taken]
      show (Store.after (Store.onAlarm id) service.store).holdings = _
      rw [Store.after, Store.onAlarm, if_pos armed]
      exact Store.holdings_commit { service.store with armed := none }
    · exact .inr stale

/-! ### A message that comes too late -/

/-- A service that takes up a request for an operation of its store runs it. -/
theorem Reached.operate {request : Request} {op : StoreM W Timers Unit} {queue : List Message}
    (reached : Reached ⟨store, .request request :: queue, true, true⟩ commits)
    (asks : ∀ service : Service W, (answer request service).2 = (service.operate op).2) :
    Reached ⟨Store.after op store, queue, true, true⟩ commits := by
  have next := reached.step
  have moved : (Service.step ⟨store, .request request :: queue, true, true⟩).2 =
      ⟨Store.after op store, queue, true, true⟩ := (asks _).trans (operate_snd op _)
  have nothing : commitsNext ⟨store, .request request :: queue, true, true⟩ = [] := rfl
  rwa [moved, nothing, List.append_nil] at next

/-- A store that is new, and whose provider to be has been given data. -/
def newStore : Store Memory Timers :=
  .new .default (.new ⟨"s.xml"⟩ .sharedGeneral none)
    (Memory.empty.update "A" (·.set (Utf8.encode ['1']))) (.ofFiles .new) (.new false)

/-- The provider has been registered, and a write waits for the first alarm. -/
def waitingStore : Store Memory Timers :=
  Store.after (Store.write false) (Store.after (Store.register "A" (some .sharedGeneral)) newStore)

/-- The task of the alarm has ended, but a forced write came before its message. Then the provider is
given data again. -/
def forcedStore : Store Memory Timers :=
  let s := Store.after (Store.write true)
    { waitingStore with alarms := waitingStore.alarms.settle .ended 0 }
  { s with providers := s.providers.update "A" (·.set (Utf8.encode ['2'])) }

/-- Another write has set a new alarm when the message of the first one is next. -/
def lateMessage : Service Memory :=
  ⟨Store.after (Store.write false) forcedStore, [.alarm 1], true, true⟩

theorem reached_lateMessage : Reached lateMessage [] := by
  have start : Reached (.new newStore) [] := .start (Store.isTimed_new _ _ _ _ _)
  have registered := (start.send (.register "A" (some .sharedGeneral))).operate fun _ => rfl
  have waiting : Reached ⟨waitingStore, [], true, true⟩ [] :=
    (registered.send (.write false)).operate fun _ => rfl
  have sent : Reached ⟨waitingStore, [.request (.write true), .request (.write false)], true, true⟩
      [] := (waiting.send (.write true)).send (.write false)
  have wakes : waitingStore.alarms.wake? 0 = some (1, waitingStore.alarms.settle .ended 0) := by
    decide +kernel
  have moved : expire 0
      ⟨waitingStore, [.request (.write true), .request (.write false)], true, true⟩ =
        ⟨{ waitingStore with alarms := waitingStore.alarms.settle .ended 0 },
          [.request (.write true), .request (.write false), .alarm 1], true, true⟩ := by
    rw [expire, wakes]
    rfl
  have told := sent.expire 0
  rw [moved] at told
  have forced := told.operate fun _ => rfl
  exact (forced.change _ _ _).operate fun _ => rfl

/-- A task sleeps for the new alarm, and the message of the old one is ignored. -/
theorem wake_ups_lateMessage :
    lateMessage.store.armed = some 2 ∧
      (∃ alarm ∈ lateMessage.store.alarms.sleeping, alarm.id = 2) ∧
      lateMessage.step = (none, { lateMessage with queue := [] }) := by
  have armed : lateMessage.store.armed = some 2 := by decide +kernel
  obtain ⟨whereabouts, -, -, -, -, messages, -⟩ := wake_ups reached_lateMessage
  refine ⟨armed, (whereabouts rfl rfl 2 armed).2 (by simp [lateMessage]), ?_⟩
  rcases messages rfl 1 [] rfl with ⟨due, -⟩ | ⟨-, -, ignored⟩
  · rw [armed] at due
    cases due
  · exact ignored

end Service

end SectionStore
