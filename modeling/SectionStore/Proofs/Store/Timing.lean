import SectionStore.Proofs.Store.Holdings

/-!
# How operations treat the alarm

An operation of the store leaves the alarm alone, cancels it, or sets a new one where none is armed
(`Retimes`). Under any lawful scheduler there never waits more than the alarm that the store knows
of (`waiting_of_mem`), so cancelling leaves none (`waiting_disarm`).
-/

namespace SectionStore

/-- A scheduler with its view: which alarms wait for their time. They are numbered one after the
other. What a scheduler needs to keep for that is an invariant of its own. -/
class LawfulScheduler (A : Type) [AlarmScheduler A] where
  /-- The alarms that have neither gone off nor been cancelled. -/
  waiting : A → List AlarmId
  /-- The number of the last alarm. -/
  lastId : A → AlarmId
  Sound : A → Prop
  waiting_new : waiting AlarmScheduler.new = []
  sound_new : Sound AlarmScheduler.new
  schedule_fst (now delay : Nat) (a : A) : (AlarmScheduler.schedule now delay a).1 = lastId a + 1
  lastId_schedule (now delay : Nat) (a : A) :
    lastId (AlarmScheduler.schedule now delay a).2 = lastId a + 1
  waiting_schedule (now delay : Nat) (a : A) :
    waiting (AlarmScheduler.schedule now delay a).2 = waiting a ++ [lastId a + 1]
  sound_schedule (now delay : Nat) {a : A} (sound : Sound a) :
    Sound (AlarmScheduler.schedule now delay a).2
  lastId_cancel (id : AlarmId) (a : A) : lastId (AlarmScheduler.cancel id a) = lastId a
  waiting_cancel (id : AlarmId) {a : A} (sound : Sound a) :
    waiting (AlarmScheduler.cancel id a) = (waiting a).filter (· ≠ id)
  sound_cancel (id : AlarmId) {a : A} (sound : Sound a) : Sound (AlarmScheduler.cancel id a)

/-! ### Alarms on demand -/

namespace Alarms

/-- The numbers of the pending alarms. -/
def ids (alarms : Alarms) : List AlarmId :=
  alarms.pending.map (·.id)

theorem ids_schedule (alarms : Alarms) (now delay : Nat) :
    (alarms.schedule now delay).ids = alarms.ids ++ [alarms.nextId] := by
  simp [ids, schedule]

theorem ids_cancel (alarms : Alarms) (id : AlarmId) :
    (alarms.cancel id).ids = alarms.ids.filter (· ≠ id) := by
  rw [ids, pending_cancel]
  simp [ids, List.filter_map, Function.comp_def]

end Alarms

instance : LawfulScheduler Alarms where
  waiting := Alarms.ids
  lastId := Alarms.scheduled
  Sound _ := True
  waiting_new := rfl
  sound_new := trivial
  schedule_fst _ _ _ := rfl
  lastId_schedule _ _ _ := rfl
  waiting_schedule now delay alarms := alarms.ids_schedule now delay
  sound_schedule _ _ _ _ := trivial
  lastId_cancel id alarms := alarms.scheduled_cancel id
  waiting_cancel id alarms _ := alarms.ids_cancel id
  sound_cancel _ _ _ := trivial

@[simp] theorem Alarms.waiting_eq (alarms : Alarms) : LawfulScheduler.waiting alarms = alarms.ids :=
  rfl

namespace Store

open LawfulScheduler

variable {W A : Type} [AlarmScheduler A]

/-- How an operation treats the alarm: it leaves it alone, cancels it, or sets a new one where none
is armed. -/
inductive Retimes (s t : Store W A) : Prop where
  | same (armed : t.armed = s.armed) (alarms : t.alarms = s.alarms)
  | disarmed (armed : t.armed = s.disarm.armed) (alarms : t.alarms = s.disarm.alarms)
  | set (idle : s.armed = none) (now delay : Nat)
      (armed : t.armed = some (AlarmScheduler.schedule now delay s.alarms).1)
      (alarms : t.alarms = (AlarmScheduler.schedule now delay s.alarms).2)

variable {s t u : Store W A}

/-- What has no part in the timing may change after an operation. -/
theorem Retimes.congr (retimes : Retimes s t) (armed : u.armed = t.armed)
    (alarms : u.alarms = t.alarms) : Retimes s u := by
  cases retimes with
  | same armed' alarms' => exact .same (armed.trans armed') (alarms.trans alarms')
  | disarmed armed' alarms' => exact .disarmed (armed.trans armed') (alarms.trans alarms')
  | set idle now delay armed' alarms' =>
    exact .set idle now delay (armed.trans armed') (alarms.trans alarms')

theorem disarm_congr (armed : t.armed = s.armed) (alarms : t.alarms = s.alarms) :
    t.disarm.armed = s.disarm.armed ∧ t.disarm.alarms = s.disarm.alarms := by
  unfold disarm
  rw [armed]
  cases s.armed with
  | none => exact ⟨armed, alarms⟩
  | some id => exact ⟨rfl, congrArg (AlarmScheduler.cancel id) alarms⟩

/-- What has no part in the timing may have changed before an operation. -/
theorem Retimes.of_same (armed : t.armed = s.armed) (alarms : t.alarms = s.alarms)
    (retimes : Retimes t u) : Retimes s u := by
  cases retimes with
  | same armed' alarms' => exact .same (armed'.trans armed) (alarms'.trans alarms)
  | disarmed armed' alarms' =>
    obtain ⟨armed₁, alarms₁⟩ := disarm_congr armed alarms
    exact .disarmed (armed'.trans armed₁) (alarms'.trans alarms₁)
  | set idle now delay armed' alarms' =>
    rw [alarms] at armed' alarms'
    exact .set (armed.symm.trans idle) now delay armed' alarms'

theorem armed_disarm (s : Store W A) : s.disarm.armed = none := by
  unfold disarm
  split
  · assumption
  · rfl

/-- Where no alarm is armed, there is nothing to cancel. -/
theorem disarm_of_idle (idle : s.armed = none) : s.disarm = s := by
  rw [disarm, idle]

/-! ### The alarms that wait -/

section Waiting

variable [LawfulScheduler A]

theorem lastId_disarm (s : Store W A) : lastId s.disarm.alarms = lastId s.alarms := by
  unfold disarm
  split
  · rfl
  · exact lastId_cancel _ _

theorem sound_disarm (sound : LawfulScheduler.Sound s.alarms) :
    LawfulScheduler.Sound s.disarm.alarms := by
  unfold disarm
  split
  · exact sound
  · exact sound_cancel _ sound

/-- Operations keep what the scheduler needs. -/
theorem Retimes.sound (retimes : Retimes s t) (sound : LawfulScheduler.Sound s.alarms) :
    LawfulScheduler.Sound t.alarms := by
  cases retimes with
  | same armed alarms => rwa [alarms]
  | disarmed armed alarms =>
    rw [alarms]
    exact sound_disarm sound
  | set idle now delay armed alarms =>
    rw [alarms]
    exact sound_schedule now delay sound

variable (waits : waiting s.alarms = [] ∨ waiting s.alarms = s.armed.toList)

include waits

/-- Where no alarm is armed, none waits. -/
theorem waiting_of_idle (idle : s.armed = none) : waiting s.alarms = [] := by
  rcases waits with none | armed
  · exact none
  · rw [armed, idle]
    rfl

/-- An alarm that waits is the only one, and armed. -/
theorem waiting_of_mem {id : AlarmId} (inside : id ∈ waiting s.alarms) :
    waiting s.alarms = [id] ∧ s.armed = some id := by
  rcases waits with none | armed
  · rw [none] at inside
    cases inside
  · rw [armed] at inside
    have same : s.armed = some id := Option.mem_toList.1 inside
    exact ⟨by rw [armed, same]; rfl, same⟩

/-- Once the alarm has been cancelled, none waits. -/
theorem waiting_disarm (sound : LawfulScheduler.Sound s.alarms) : waiting s.disarm.alarms = [] := by
  cases armed : s.armed with
  | none =>
    rw [disarm_of_idle armed]
    exact waiting_of_idle waits armed
  | some id =>
    simp only [disarm, armed, waiting_cancel id sound]
    refine List.filter_eq_nil_iff.2 fun other inside => ?_
    have same := armed.symm.trans (waiting_of_mem waits inside).2
    simpa using (Option.some.inj same).symm

/-- What an operation makes of the alarms that wait: it leaves them as they are, or none waits any
more, or the only one is new. -/
theorem Retimes.cases_waiting (retimes : Retimes s t) (sound : LawfulScheduler.Sound s.alarms) :
    (t.armed = s.armed ∧ t.alarms = s.alarms) ∨
      (t.armed = none ∧ waiting t.alarms = [] ∧ lastId t.alarms = lastId s.alarms) ∨
      (s.armed = none ∧ t.armed = some (lastId s.alarms + 1) ∧
        waiting t.alarms = [lastId s.alarms + 1] ∧ lastId t.alarms = lastId s.alarms + 1) := by
  cases retimes with
  | same armed alarms => exact .inl ⟨armed, alarms⟩
  | disarmed armed alarms =>
    refine .inr (.inl ⟨armed.trans (armed_disarm s), ?_, ?_⟩) <;> rw [alarms]
    · exact waiting_disarm waits sound
    · exact lastId_disarm s
  | set idle now delay armed alarms =>
    rw [schedule_fst] at armed
    refine .inr (.inr ⟨idle, armed, ?_, ?_⟩) <;> rw [alarms]
    · rw [waiting_schedule, waiting_of_idle waits idle]
      rfl
    · exact lastId_schedule now delay s.alarms

end Waiting

/-! ### The operations -/

theorem retimes_arm (s : Store W A) : Retimes s s.arm := by
  unfold arm
  cases idle : s.armed with
  | none => exact .set idle _ _ rfl rfl
  | some id => exact .same rfl rfl

/-- A commit cancels the alarm, whatever becomes of the files. -/
theorem timing_commit (s : Store W A) :
    (after commit s).armed = s.disarm.armed ∧ (after commit s).alarms = s.disarm.alarms := by
  obtain ⟨shared, users, disk, same⟩ := committed_eq s
  rw [after, commit_eq, same]
  cases s.holdings.commitFault <;> exact ⟨rfl, rfl⟩

theorem retimes_commit (s : Store W A) : Retimes s (after commit s) :=
  .disarmed (timing_commit s).1 (timing_commit s).2

/-- The armed alarm that goes off is spent, and not cancelled. -/
theorem timing_onAlarm {id : AlarmId} (armed : s.armed = some id) :
    (after (onAlarm id) s).armed = none ∧ (after (onAlarm id) s).alarms = s.alarms := by
  obtain ⟨armed', alarms⟩ := timing_commit { s with armed := none }
  rw [disarm_of_idle rfl] at armed' alarms
  rw [after, onAlarm, if_pos armed]
  exact ⟨armed', alarms⟩

/-- A stale alarm is ignored. -/
theorem onAlarm_of_stale {id : AlarmId} (stale : s.armed ≠ some id) :
    onAlarm id s = .ok () s :=
  if_neg stale

theorem retimes_timedReading (reading : EStateM StoreError W Unit) (s : Store W A) :
    Retimes s (after (timedReading reading) s) := by
  obtain ⟨providers, clock, metrics, same⟩ := after_timedReading reading s
  rw [same]
  exact .same rfl rfl

omit [AlarmScheduler A] in
theorem armed_register (name : String) (file : Option FileId) (s : Store W A) :
    (after (register name file) s).armed = s.armed := by
  unfold after register
  cases s.registry.register name file <;> rfl

theorem retimes_register (name : String) (file : Option FileId) (s : Store W A) :
    Retimes s (after (register name file) s) := by
  unfold after register
  cases s.registry.register name file <;> exact .same rfl rfl

section Providers

variable [ProviderHost W]

theorem retimes_write (force : Bool) (s : Store W A) : Retimes s (after (write force) s) := by
  obtain ⟨t, -, ⟨armed, alarms⟩, run⟩ := write_eq force s
  refine .of_same armed alarms ?_
  rw [after, run]
  cases s.holdings.refreshResult with
  | error e => exact .same rfl rfl
  | ok isNew =>
    cases force with
    | true =>
      by_cases due : (isNew || t.isWaiting || t.hasBuffered) = true
      · simp only [if_true, if_pos due]
        exact retimes_commit t
      · simp only [if_true, if_neg due]
        exact .same rfl rfl
    | false =>
      cases isNew with
      | true => exact retimes_arm t
      | false => exact .same rfl rfl

/-- Whoever makes way for new files cancels the alarm, unless a commit has already done so. -/
theorem retimes_leaveUserFiles (s : Store W A) : Retimes s (after leaveUserFiles s) := by
  obtain ⟨t, origin, ends⟩ := after_leaveUserFiles_cases s
  rcases origin with ⟨-, rfl⟩ | ⟨-, rfl⟩
  · rcases ends with same | ⟨providers, same⟩ <;> rw [same]
    · exact .same rfl rfl
    · obtain ⟨armed, alarms⟩ := disarm_congr (s := t) (t := { t with providers }) rfl rfl
      exact .disarmed armed alarms
  · have committed := retimes_commit s
    rcases ends with same | ⟨providers, same⟩ <;> rw [same]
    · exact committed
    · have idle : (after commit s).armed = none := (timing_commit s).1.trans (armed_disarm s)
      rw [disarm_of_idle (s := { after commit s with providers }) idle]
      exact committed.congr rfl rfl

theorem retimes_switchUserFiles (files : List StoreFile) (s : Store W A) :
    Retimes s (after (switchUserFiles files) s) := by
  have left := retimes_leaveUserFiles s
  rcases after_switchUserFiles_cases files s with same | ⟨providers, clock, metrics, same⟩ <;>
    rw [same]
  · exact left
  · exact left.congr rfl rfl

theorem retimes_read (s : Store W A) : Retimes s (after Store.read s) := by
  refine .of_same ?_ ?_ (retimes_timedReading (readAll s.registry s.disk s.files)
    { s with providers := resetAll s.registry s.files s.providers }) <;> rfl

end Providers

end Store

end SectionStore
