import SectionStore.Alarm

/-!
# Timers

A service has a task for each alarm. The task sleeps until the alarm is due, and then it reports it.
`Timers` keeps the handles of the tasks by the numbers of their alarms (`TaskTable`), and a task can
be aborted through its handle only. What is in the table is therefore one thing, and which tasks
sleep another: the handles of tasks that have ended stay in the table until the next alarm is set.
-/

namespace SectionStore

/-- What has become of a task. -/
inductive TaskState where
  | sleeping
  /-- It has reported its alarm. -/
  | ended
  /-- It was aborted while it slept. -/
  | aborted
  deriving DecidableEq, Repr

/-- A task that was started for an alarm. -/
structure TimerTask where
  alarm : Alarm
  state : TaskState
  deriving DecidableEq, Repr

namespace TimerTask

def isSleeping (task : TimerTask) : Bool :=
  task.state = .sleeping

/-- The task after something has come about that ends its sleep. It does nothing to a task that does
not sleep any more. -/
def settle (state : TaskState) (task : TimerTask) : TimerTask :=
  if task.isSleeping then { task with state } else task

theorem alarm_settle (state : TaskState) (task : TimerTask) :
    (task.settle state).alarm = task.alarm := by
  unfold settle
  split <;> rfl

/-- Whoever has settled does not sleep. -/
theorem isSleeping_settle {state : TaskState} (awake : state ≠ .sleeping) (task : TimerTask) :
    (task.settle state).isSleeping = false := by
  unfold settle
  split
  · simpa [isSleeping] using awake
  · rename_i asleep
    simpa using asleep

end TimerTask

/-- A handle of a task: how many tasks were started before it. -/
abbrev TaskId := Nat

/-- The handles of tasks, by the numbers of their alarms. -/
structure TaskTable where
  entries : List (AlarmId × TaskId)
  distinct : (entries.map (·.1)).Nodup
  deriving DecidableEq

namespace TaskTable

def empty : TaskTable :=
  ⟨[], .nil⟩

/-- The table with the entries that are to be kept. -/
def retain (keep : AlarmId × TaskId → Bool) (table : TaskTable) : TaskTable :=
  ⟨table.entries.filter keep, table.distinct.sublist (List.filter_sublist.map _)⟩

def get? (table : TaskTable) (id : AlarmId) : Option TaskId :=
  (table.entries.find? (·.1 = id)).map (·.2)

def erase (table : TaskTable) (id : AlarmId) : TaskTable :=
  table.retain (·.1 ≠ id)

def insert (table : TaskTable) (id : AlarmId) (task : TaskId) : TaskTable where
  entries := (id, task) :: (table.erase id).entries
  distinct := List.nodup_cons.2 ⟨by simp [erase, retain], (table.erase id).distinct⟩

/-- Is there a handle of the task? -/
def holds (table : TaskTable) (task : TaskId) : Bool :=
  table.entries.any (·.2 = task)

@[simp] theorem mem_empty {entry : AlarmId × TaskId} : ¬ entry ∈ empty.entries :=
  List.not_mem_nil

@[simp] theorem mem_retain {table : TaskTable} {keep : AlarmId × TaskId → Bool}
    {entry : AlarmId × TaskId} :
    entry ∈ (table.retain keep).entries ↔ entry ∈ table.entries ∧ keep entry = true :=
  List.mem_filter

@[simp] theorem mem_erase {table : TaskTable} {id : AlarmId} {entry : AlarmId × TaskId} :
    entry ∈ (table.erase id).entries ↔ entry ∈ table.entries ∧ entry.1 ≠ id := by
  simp [erase]

@[simp] theorem mem_insert {table : TaskTable} {id : AlarmId} {task : TaskId}
    {entry : AlarmId × TaskId} :
    entry ∈ (table.insert id task).entries ↔
      entry = (id, task) ∨ entry ∈ table.entries ∧ entry.1 ≠ id := by
  simp [insert]

end TaskTable

/-- The timers of a service: the tasks that were ever started, and the handles that are kept. -/
structure Timers where
  tasks : List TimerTask
  table : TaskTable
  /-- The number of the last alarm. -/
  lastId : AlarmId
  deriving DecidableEq

namespace Timers

def new : Timers :=
  ⟨[], .empty, 0⟩

/-- The alarms whose tasks sleep, the oldest first. -/
def sleeping (timers : Timers) : List Alarm :=
  (timers.tasks.filter (·.isSleeping)).map (·.alarm)

/-- The alarm of a task, if the task sleeps. -/
def sleeping? (timers : Timers) (id : TaskId) : Option Alarm :=
  match timers.tasks[id]? with
  | some ⟨alarm, .sleeping⟩ => some alarm
  | _ => none

/-- Has a task come to its end? -/
def isFinished (timers : Timers) (id : TaskId) : Bool :=
  (timers.sleeping? id).isNone

/-- The timers after something has come about that ends the sleep of a task. -/
def settle (state : TaskState) (timers : Timers) (id : TaskId) : Timers :=
  { timers with tasks := timers.tasks.modify id (·.settle state) }

/-- Sets an alarm: a task is started for it, and its handle is kept. The handles of tasks that have
come to their end are dropped before. -/
def schedule (now delay : Nat) (timers : Timers) : AlarmId × Timers :=
  let kept := timers.table.retain fun entry => !timers.isFinished entry.2
  let id := timers.lastId + 1
  (id,
    { tasks := timers.tasks ++ [⟨⟨id, delay, now⟩, .sleeping⟩]
      table := kept.insert id timers.tasks.length
      lastId := id })

/-- Cancels an alarm: if there is a handle of its task, it is taken out and the task is aborted. -/
def cancel (id : AlarmId) (timers : Timers) : Timers :=
  match timers.table.get? id with
  | none => timers
  | some task => { timers with table := timers.table.erase id }.settle .aborted task

/-- Drops the timers: all tasks that there is a handle of are aborted. -/
def drop (timers : Timers) : Timers :=
  { timers with
    tasks := timers.tasks.mapIdx fun id task =>
      if timers.table.holds id then task.settle .aborted else task
    table := .empty }

/-- The time of a task has come: it reports its alarm and ends, if it sleeps. -/
def wake? (timers : Timers) (id : TaskId) : Option (AlarmId × Timers) :=
  (timers.sleeping? id).map fun alarm => (alarm.id, timers.settle .ended id)

/-- Among the tasks that sleep and whose alarms are due, the one whose time comes first; the older
one if two are due at the same time. -/
def firstDue? (timers : Timers) (now : Nat) : Option (TaskId × Alarm) :=
  (timers.tasks.zipIdx.filter fun (task, _) => task.isSleeping && task.alarm.due ≤ now).foldl
    (fun first (task, id) =>
      match first with
      | none => some (id, task.alarm)
      | some other => if task.alarm.due < other.2.due then some (id, task.alarm) else some other)
    none

end Timers

instance : AlarmScheduler Timers where
  new := Timers.new
  schedule := Timers.schedule
  cancel := Timers.cancel

end SectionStore
