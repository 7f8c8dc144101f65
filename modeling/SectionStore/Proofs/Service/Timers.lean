import Mathlib.Data.List.Nodup
import SectionStore.Proofs.Store.Timing
import SectionStore.Timers

/-!
# What timers keep

A task can be aborted through the table of handles only. So cancelling an alarm works if the table
has every task that sleeps, under the number of its alarm, and leads to no other task from there
(`Timers.Sound`). Setting an alarm keeps this, although it drops handles, since it drops only those
of tasks that have ended (`Sound.mem_table_schedule_iff`); so do cancelling, waking and dropping.
With it timers are a lawful scheduler, and no task sleeps once they have been dropped (`ids_drop`).
-/

namespace SectionStore

/-! ### The table -/

namespace TaskTable

variable {table : TaskTable} {id : AlarmId} {task other : TaskId}

/-- No alarm has two handles. -/
theorem eq_of_mem (here : (id, task) ∈ table.entries) (there : (id, other) ∈ table.entries) :
    task = other :=
  congrArg Prod.snd (List.inj_on_of_nodup_map table.distinct here there rfl)

theorem get?_eq_some_iff : table.get? id = some task ↔ (id, task) ∈ table.entries := by
  rw [get?, Option.map_eq_some_iff]
  constructor
  · rintro ⟨⟨key, handle⟩, found, rfl⟩
    obtain rfl : key = id := by simpa using List.find?_some found
    exact List.mem_of_find?_eq_some found
  · intro inside
    cases found : table.entries.find? (·.1 = id) with
    | none => simpa using List.find?_eq_none.1 found _ inside
    | some entry =>
      obtain ⟨key, handle⟩ := entry
      obtain rfl : key = id := by simpa using List.find?_some found
      exact ⟨_, rfl, eq_of_mem (List.mem_of_find?_eq_some found) inside⟩

theorem holds_iff : table.holds task = true ↔ ∃ id, (id, task) ∈ table.entries := by
  simp [holds]

end TaskTable

namespace Timers

variable {timers : Timers} {id : AlarmId} {task other : TaskId} {alarm : Alarm} {state : TaskState}

/-! ### The tasks that sleep -/

/-- The numbers of the alarms whose tasks sleep. -/
def ids (timers : Timers) : List AlarmId :=
  (timers.tasks.filter (·.isSleeping)).map (·.alarm.id)

theorem map_sleeping (timers : Timers) : timers.sleeping.map (·.id) = timers.ids := by
  simp [sleeping, ids]

theorem sleeping?_eq_some_iff :
    timers.sleeping? task = some alarm ↔ timers.tasks[task]? = some ⟨alarm, .sleeping⟩ := by
  unfold sleeping?
  split
  · rename_i found
    simp [found]
  · rename_i others
    simpa using others alarm

theorem mem_sleeping_iff :
    alarm ∈ timers.sleeping ↔ ∃ task, timers.sleeping? task = some alarm := by
  simp only [sleeping, List.mem_map, List.mem_filter, sleeping?_eq_some_iff]
  constructor
  · rintro ⟨⟨alarm, state⟩, ⟨inside, asleep⟩, rfl⟩
    obtain ⟨task, found⟩ := List.mem_iff_getElem?.1 inside
    obtain rfl : state = .sleeping := by simpa [TimerTask.isSleeping] using asleep
    exact ⟨task, found⟩
  · rintro ⟨task, found⟩
    exact ⟨_, ⟨List.mem_of_getElem? found, rfl⟩, rfl⟩

theorem mem_ids_iff :
    id ∈ timers.ids ↔ ∃ task alarm, timers.sleeping? task = some alarm ∧ alarm.id = id := by
  simp only [← map_sleeping, List.mem_map, mem_sleeping_iff]
  exact ⟨fun ⟨alarm, ⟨task, found⟩, same⟩ => ⟨task, alarm, found, same⟩,
    fun ⟨task, alarm, found, same⟩ => ⟨alarm, ⟨task, found⟩, same⟩⟩

theorem getElem?_settle (state : TaskState) (timers : Timers) (task other : TaskId) :
    (timers.settle state task).tasks[other]? =
      timers.tasks[other]?.map fun t => if task = other then t.settle state else t :=
  List.getElem?_modify _ _ _ _

/-- Settling a task ends its sleep and touches no other. -/
theorem sleeping?_settle (awake : state ≠ .sleeping) :
    (timers.settle state task).sleeping? other = some alarm ↔
      other ≠ task ∧ timers.sleeping? other = some alarm := by
  rw [sleeping?_eq_some_iff, sleeping?_eq_some_iff, getElem?_settle, Option.map_eq_some_iff]
  by_cases same : task = other
  · simp only [same, if_true, ne_eq, not_true_eq_false, false_and, iff_false]
    rintro ⟨t, -, settled⟩
    have := TimerTask.isSleeping_settle awake t
    simp [settled, TimerTask.isSleeping] at this
  · simp [same, Ne.symm same]

/-- If a task is the only one that may sleep for an alarm, the end of its sleep takes the alarm
out. -/
theorem ids_modify (awake : state ≠ .sleeping) {tasks : List TimerTask}
    (only : ∀ other t, tasks[other]? = some t → t.isSleeping = true →
      (t.alarm.id = id ↔ other = task)) :
    ((tasks.modify task (·.settle state)).filter (·.isSleeping)).map (·.alarm.id) =
      ((tasks.filter (·.isSleeping)).map (·.alarm.id)).filter (· ≠ id) := by
  induction tasks generalizing task with
  | nil => simp
  | cons t rest ih =>
    have first := only 0 t rfl
    cases task with
    | zero =>
      have others : ∀ other ∈ (rest.filter (·.isSleeping)).map (·.alarm.id),
          decide (other ≠ id) = true := by
        simp only [List.mem_map, List.mem_filter, decide_eq_true_eq]
        rintro _ ⟨t', ⟨inside, asleep⟩, rfl⟩ same
        obtain ⟨other, found⟩ := List.mem_iff_getElem?.1 inside
        exact Nat.succ_ne_zero other ((only (other + 1) t' found asleep).1 same)
      rw [List.modify_zero_cons,
        List.filter_cons_of_neg (by simp [TimerTask.isSleeping_settle awake])]
      by_cases asleep : t.isSleeping = true
      · have same : t.alarm.id = id := (first asleep).2 rfl
        rw [List.filter_cons_of_pos asleep, List.map_cons,
          List.filter_cons_of_neg (by simpa using same), List.filter_eq_self.2 others]
      · rw [List.filter_cons_of_neg asleep, List.filter_eq_self.2 others]
    | succ task =>
      have rest' := @ih task fun other t' found asleep => by
        simpa using only (other + 1) t' found asleep
      rw [List.modify_succ_cons]
      by_cases asleep : t.isSleeping = true
      · have differ : t.alarm.id ≠ id := fun same => by simpa using (first asleep).1 same
        rw [List.filter_cons_of_pos asleep, List.filter_cons_of_pos asleep, List.map_cons,
          List.map_cons, rest', List.filter_cons_of_pos (by simpa using differ)]
      · rw [List.filter_cons_of_neg asleep, List.filter_cons_of_neg asleep, rest']

/-! ### The table has the tasks that sleep -/

/-- What makes timers work. -/
structure Sound (timers : Timers) : Prop where
  /-- The table has every task that sleeps. -/
  held : ∀ task alarm, timers.sleeping? task = some alarm →
    (alarm.id, task) ∈ timers.table.entries
  /-- From the number of an alarm it leads to the task that was started for the alarm. -/
  own : ∀ id task, (id, task) ∈ timers.table.entries →
    ∃ t, timers.tasks[task]? = some t ∧ t.alarm.id = id
  numbered : ∀ t ∈ timers.tasks, t.alarm.id ≤ timers.lastId

theorem sound_new : Sound .new where
  held task alarm found := by simp [sleeping?_eq_some_iff, Timers.new] at found
  own id task inside := by simp [Timers.new] at inside
  numbered := List.forall_mem_nil _

namespace Sound

/-- The alarm of a task that sleeps is not numbered higher than the last one. -/
theorem id_le (sound : Sound timers) (found : timers.sleeping? task = some alarm) :
    alarm.id ≤ timers.lastId :=
  sound.numbered _ (List.mem_of_getElem? (sleeping?_eq_some_iff.1 found))

/-- The end of a task's sleep takes its alarm out of those that wait. -/
theorem ids_settle (sound : Sound timers) (awake : state ≠ .sleeping)
    (inside : (id, task) ∈ timers.table.entries) :
    (timers.settle state task).ids = timers.ids.filter (· ≠ id) := by
  refine ids_modify awake fun other t found asleep => ?_
  obtain ⟨t', found', rfl⟩ := sound.own _ _ inside
  constructor
  · intro same
    obtain ⟨alarm, state⟩ := t
    obtain rfl : state = .sleeping := by simpa [TimerTask.isSleeping] using asleep
    have held := sound.held other alarm (sleeping?_eq_some_iff.2 found)
    rw [same] at held
    exact TaskTable.eq_of_mem held inside
  · rintro rfl
    rw [Option.some.inj (found.symm.trans found')]

theorem settle (sound : Sound timers) (awake : state ≠ .sleeping) (task : TaskId) :
    Sound (timers.settle state task) where
  held other alarm found := sound.held other alarm ((sleeping?_settle awake).1 found).2
  own id other inside := by
    obtain ⟨t, found, same⟩ := sound.own id other inside
    refine ⟨_, by rw [getElem?_settle, found]; rfl, ?_⟩
    split
    · rw [TimerTask.alarm_settle, same]
    · exact same
  numbered t inside := by
    obtain ⟨other, found⟩ := List.mem_iff_getElem?.1 inside
    rw [getElem?_settle, Option.map_eq_some_iff] at found
    obtain ⟨t', found', rfl⟩ := found
    have numbered := sound.numbered t' (List.mem_of_getElem? found')
    split
    · rwa [TimerTask.alarm_settle]
    · exact numbered

/-- The handle of a task that does not sleep can be dropped. -/
theorem erase (sound : Sound timers) (awake : id ∉ timers.ids) :
    Sound { timers with table := timers.table.erase id } where
  held task alarm found := by
    refine TaskTable.mem_erase.2 ⟨sound.held task alarm found, ?_⟩
    rintro rfl
    exact awake (mem_ids_iff.2 ⟨task, alarm, found, rfl⟩)
  own other task inside := sound.own other task (TaskTable.mem_erase.1 inside).1
  numbered := sound.numbered

end Sound

/-! ### Setting an alarm -/

theorem ids_schedule (now delay : Nat) (timers : Timers) :
    (timers.schedule now delay).2.ids = timers.ids ++ [timers.lastId + 1] := by
  simp [ids, schedule, TimerTask.isSleeping]

/-- The new task is the last one, and the others sleep as before. -/
theorem sleeping?_schedule {now delay : Nat} :
    (timers.schedule now delay).2.sleeping? task = some alarm ↔
      task = timers.tasks.length ∧ alarm = ⟨timers.lastId + 1, delay, now⟩ ∨
        timers.sleeping? task = some alarm := by
  rw [sleeping?_eq_some_iff, sleeping?_eq_some_iff, schedule]
  rcases Nat.lt_trichotomy task timers.tasks.length with before | rfl | behind
  · simp [List.getElem?_append_left before, Nat.ne_of_lt before]
  · simp [eq_comm]
  · rw [List.getElem?_eq_none (by simpa using Nat.succ_le_of_lt behind),
      List.getElem?_eq_none (Nat.le_of_lt behind)]
    simp [Nat.ne_of_gt behind]

/-- Only the handles of tasks that have come to their end are dropped. -/
theorem Sound.schedule (sound : Sound timers) (now delay : Nat) :
    Sound (timers.schedule now delay).2 where
  held task alarm found := by
    refine TaskTable.mem_insert.2 ?_
    rcases sleeping?_schedule.1 found with ⟨rfl, rfl⟩ | found
    · exact .inl rfl
    · have number := sound.id_le found
      refine .inr ⟨TaskTable.mem_retain.2 ⟨sound.held task alarm found, ?_⟩, ?_⟩
      · simp [isFinished, found]
      · exact Nat.ne_of_lt (Nat.lt_succ_of_le number)
  own id task inside := by
    rcases TaskTable.mem_insert.1 inside with same | ⟨kept, -⟩
    · obtain ⟨rfl, rfl⟩ := Prod.mk.inj same
      exact ⟨_, List.getElem?_concat_length, rfl⟩
    · obtain ⟨t, found, same⟩ := sound.own id task (TaskTable.mem_retain.1 kept).1
      have before : task < timers.tasks.length := (List.getElem?_eq_some_iff.1 found).1
      exact ⟨t, (List.getElem?_append_left before).trans found, same⟩
  numbered t inside := by
    rcases List.mem_append.1 inside with old | new
    · exact Nat.le_succ_of_le (sound.numbered t old)
    · obtain rfl := List.mem_singleton.1 new
      exact Nat.le_refl _

/-- Once an alarm has been set, the table has the tasks that sleep, and no others any more. -/
theorem Sound.mem_table_schedule_iff (sound : Sound timers) {now delay : Nat} :
    (id, task) ∈ (timers.schedule now delay).2.table.entries ↔
      ∃ alarm, (timers.schedule now delay).2.sleeping? task = some alarm ∧ alarm.id = id := by
  constructor
  · intro inside
    rcases TaskTable.mem_insert.1 inside with same | ⟨kept, -⟩
    · obtain ⟨rfl, rfl⟩ := Prod.mk.inj same
      exact ⟨_, sleeping?_schedule.2 (.inl ⟨rfl, rfl⟩), rfl⟩
    · obtain ⟨held, unfinished⟩ := TaskTable.mem_retain.1 kept
      obtain ⟨t, found, rfl⟩ := sound.own id task held
      obtain ⟨alarm, sleeps⟩ : ∃ alarm, timers.sleeping? task = some alarm := by
        simpa [isFinished, ← Option.isSome_iff_exists] using unfinished
      obtain rfl := Option.some.inj (found.symm.trans (sleeping?_eq_some_iff.1 sleeps))
      exact ⟨alarm, sleeping?_schedule.2 (.inr sleeps), rfl⟩
  · rintro ⟨alarm, sleeps, rfl⟩
    exact (sound.schedule now delay).held task alarm sleeps

/-! ### Cancelling, waking and dropping -/

/-- An alarm that has no handle has no task that sleeps. -/
theorem Sound.not_mem_ids (sound : Sound timers) (absent : timers.table.get? id = none) :
    id ∉ timers.ids := by
  intro waits
  obtain ⟨task, alarm, found, rfl⟩ := mem_ids_iff.1 waits
  rw [TaskTable.get?_eq_some_iff.2 (sound.held task alarm found)] at absent
  cases absent

theorem ids_cancel (sound : Sound timers) (id : AlarmId) :
    (timers.cancel id).ids = timers.ids.filter (· ≠ id) := by
  unfold cancel
  cases handle : timers.table.get? id with
  | none =>
    refine (List.filter_eq_self.2 fun other waits => ?_).symm
    rw [decide_eq_true_eq]
    rintro rfl
    exact sound.not_mem_ids handle waits
  | some task => exact sound.ids_settle (by decide) (TaskTable.get?_eq_some_iff.1 handle)

theorem Sound.cancel (sound : Sound timers) (id : AlarmId) : Sound (timers.cancel id) := by
  unfold Timers.cancel
  cases handle : timers.table.get? id with
  | none => exact sound
  | some task =>
    have awake : TaskState.aborted ≠ .sleeping := by decide
    have taken := sound.ids_settle awake (TaskTable.get?_eq_some_iff.1 handle)
    exact (sound.settle awake task).erase (by simp [taken])

theorem lastId_cancel (id : AlarmId) (timers : Timers) :
    (timers.cancel id).lastId = timers.lastId := by
  unfold cancel
  cases timers.table.get? id <;> rfl

/-- Who wakes slept, and does not sleep any more. -/
theorem wake?_eq_some {woken : Timers} (wakes : timers.wake? task = some (id, woken)) :
    (∃ alarm, timers.sleeping? task = some alarm ∧ alarm.id = id) ∧
      woken = timers.settle .ended task := by
  obtain ⟨alarm, found, same⟩ := Option.map_eq_some_iff.1 wakes
  obtain ⟨rfl, rfl⟩ := Prod.mk.inj same
  exact ⟨⟨alarm, found, rfl⟩, rfl⟩

/-- Every task that sleeps has a handle, so dropping the timers aborts it. -/
theorem ids_drop (sound : Sound timers) : timers.drop.ids = [] := by
  refine List.eq_nil_iff_forall_not_mem.2 fun id waits => ?_
  obtain ⟨task, alarm, found, -⟩ := mem_ids_iff.1 waits
  rw [sleeping?_eq_some_iff, drop, List.getElem?_mapIdx, Option.map_eq_some_iff] at found
  obtain ⟨t, found, same⟩ := found
  split at same
  · have awake : TaskState.aborted ≠ .sleeping := by decide
    have := TimerTask.isSleeping_settle awake t
    simp [same, TimerTask.isSleeping] at this
  · rename_i unheld
    rw [same] at found
    have held := sound.held task alarm (sleeping?_eq_some_iff.2 found)
    exact unheld (TaskTable.holds_iff.2 ⟨_, held⟩)

theorem Sound.drop (sound : Sound timers) : Sound timers.drop where
  held task alarm found := by
    have waits := mem_ids_iff.2 ⟨task, alarm, found, rfl⟩
    rw [ids_drop sound] at waits
    cases waits
  own id task inside := absurd inside TaskTable.mem_empty
  numbered t inside := by
    obtain ⟨task, before, rfl⟩ := List.mem_mapIdx.1 inside
    have numbered := sound.numbered _ (List.getElem_mem before)
    split
    · rwa [TimerTask.alarm_settle]
    · exact numbered

end Timers

instance : LawfulScheduler Timers where
  waiting := Timers.ids
  lastId := Timers.lastId
  Sound := Timers.Sound
  waiting_new := rfl
  sound_new := Timers.sound_new
  schedule_fst _ _ _ := rfl
  lastId_schedule _ _ _ := rfl
  waiting_schedule now delay timers := timers.ids_schedule now delay
  sound_schedule now delay _ sound := sound.schedule now delay
  lastId_cancel id timers := timers.lastId_cancel id
  waiting_cancel id _ sound := Timers.ids_cancel sound id
  sound_cancel id _ sound := sound.cancel id

@[simp] theorem Timers.waiting_eq (timers : Timers) : LawfulScheduler.waiting timers = timers.ids :=
  rfl

end SectionStore
