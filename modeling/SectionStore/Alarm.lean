/-!
# Alarms

An alarm goes off once, some time after it was set, unless it is cancelled before that. A store sets
and cancels its alarms through an `AlarmScheduler`. `Alarms` is one whose alarms go off on demand:
they are numbered in the order in which they are set, no number is used twice, and who goes off is
taken out of the pending ones. Nothing here calls back.
-/

namespace SectionStore

/-- The number of an alarm. -/
abbrev AlarmId := Nat

/-- A pending alarm. -/
structure Alarm where
  id : AlarmId
  /-- How long after its setting it goes off, in milliseconds. -/
  delay : Nat
  /-- When it was set, in microseconds. -/
  setAt : Nat
  deriving DecidableEq, Repr

namespace Alarm

/-- What alarms are set for: to write what has been buffered. -/
def purpose : String :=
  "WriteBufferAlarm"

/-- The longest that a timer runs, in milliseconds: thirty years of 365 days. -/
def longestRun : Nat :=
  30 * 365 * 24 * 60 * 60 * 1000

/-- When the timer of the alarm runs out, in microseconds. A longer delay ends with the longest run. -/
def due (alarm : Alarm) : Nat :=
  alarm.setAt + 1000 * min alarm.delay longestRun

/-- An alarm that the longest run covers goes off after its delay. -/
theorem due_of_delay_le {alarm : Alarm} (h : alarm.delay ≤ longestRun) :
    alarm.due = alarm.setAt + 1000 * alarm.delay := by
  rw [due, Nat.min_eq_left h]

end Alarm

/-- A type whose values hold the alarms of a store. -/
class AlarmScheduler (A : Type) where
  /-- No alarm has been set. -/
  new : A
  /-- Sets an alarm at the given time, with a delay in milliseconds, and gives its number. -/
  schedule (now delay : Nat) : A → AlarmId × A
  /-- Cancels an alarm. It does nothing to one that is unknown or has gone off. -/
  cancel : AlarmId → A → A

/-- The pending alarms, the oldest first, and how many have been set and cancelled. -/
structure Alarms where
  pending : List Alarm
  /-- How many alarms have been set; also the number of the last one. -/
  scheduled : Nat
  /-- How many alarms have been cancelled while they were pending. -/
  cancelled : Nat
  deriving DecidableEq, Repr

namespace Alarms

def new : Alarms :=
  ⟨[], 0, 0⟩

def isArmed (alarms : Alarms) : Bool :=
  !alarms.pending.isEmpty

def isPending (alarms : Alarms) (id : AlarmId) : Bool :=
  alarms.pending.any (·.id = id)

/-- The number of the next alarm. -/
def nextId (alarms : Alarms) : AlarmId :=
  alarms.scheduled + 1

/-- The alarms after one more has been set; its number is `nextId`. -/
def schedule (alarms : Alarms) (now delay : Nat) : Alarms where
  pending := alarms.pending ++ [⟨alarms.nextId, delay, now⟩]
  scheduled := alarms.nextId
  cancelled := alarms.cancelled

/-- The pending alarms without the given one. -/
def without (alarms : Alarms) (id : AlarmId) : Alarms :=
  { alarms with pending := alarms.pending.filter (·.id ≠ id) }

/-- Cancels an alarm. It does nothing to one that is not pending. -/
def cancel (alarms : Alarms) (id : AlarmId) : Alarms :=
  if alarms.isPending id then
    { alarms.without id with cancelled := alarms.cancelled + 1 }
  else alarms

/-- The oldest pending alarm goes off. -/
def fireOldest? (alarms : Alarms) : Option (AlarmId × Alarms) :=
  match alarms.pending with
  | [] => none
  | alarm :: rest => some (alarm.id, { alarms with pending := rest })

theorem pending_cancel (alarms : Alarms) (id : AlarmId) :
    (alarms.cancel id).pending = alarms.pending.filter (·.id ≠ id) := by
  unfold cancel
  split
  · rfl
  · rename_i h
    simp only [isPending, Bool.not_eq_true, List.any_eq_false, decide_eq_true_eq] at h
    exact (List.filter_eq_self.2 fun a ha => by simpa using h a ha).symm

theorem scheduled_cancel (alarms : Alarms) (id : AlarmId) :
    (alarms.cancel id).scheduled = alarms.scheduled := by
  unfold cancel
  split <;> rfl

end Alarms

instance : AlarmScheduler Alarms where
  new := .new
  schedule now delay alarms := (alarms.nextId, alarms.schedule now delay)
  cancel id alarms := alarms.cancel id

end SectionStore
