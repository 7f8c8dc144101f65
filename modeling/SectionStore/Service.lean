import SectionStore.Store.Report
import SectionStore.Timers

/-!
# The store service

A service owns a store and answers requests, one at a time and in the order of their arrival. The
alarms of the store are timers, whose tasks run beside that of the service; what they report arrives
on the same queue as the requests. The service ends when it is asked to, or when the last handle to
it is dropped; either way it first commits what is buffered.

The steps of a service are `send`, `expire`, `step` and `dropHandle`; any order of them is a run.
`call`, `sleep` and `close` are the runs of a client that waits for each answer.
-/

namespace SectionStore

/-- What a client can ask for. -/
inductive Request where
  | register (name : String) (file : Option FileId)
  | setUserFiles (files : List StoreFile)
  | switchUserFiles (files : List StoreFile)
  | write (force : Bool)
  | read
  | isPresent
  | setVerbose (verbose : Bool)
  | dump
  | shutdown

/-- What a client is answered. -/
inductive Reply where
  | done
  | failed (error : StoreError)
  | presence (isPresent : Bool)
  | text (text : String)
  /-- The service has ended. -/
  | closed
  deriving DecidableEq

/-- The text that a client gets from a service that has ended. -/
def Reply.closedMessage : String :=
  "store service is not running"

/-- What arrives on the queue of a service. -/
inductive Message where
  | request (request : Request)
  | alarm (id : AlarmId)

/-- A service with its store, whose alarms are timers. -/
structure Service (W : Type) where
  store : Store W Timers
  /-- What has arrived and has not been taken up, the oldest first. -/
  queue : List Message
  isRunning : Bool
  /-- Is there a handle to the service? -/
  isHeld : Bool

namespace Service

variable {W : Type}

/-- A service that has just been started. -/
def new (store : Store W Timers) : Service W :=
  ⟨store, [], true, true⟩

/-- Puts a request on the queue of a running service. -/
def send (request : Request) (service : Service W) : Service W :=
  if service.isRunning && service.isHeld then
    { service with queue := service.queue ++ [.request request] }
  else service

/-- The time of a timer's task has come, if the task sleeps. Without a handle, or once the service
has ended, nobody is told. -/
def expire (task : TaskId) (service : Service W) : Service W :=
  match service.store.alarms.wake? task with
  | none => service
  | some (id, alarms) =>
    { service with
      store := { service.store with alarms }
      queue :=
        if service.isRunning && service.isHeld then service.queue ++ [.alarm id]
        else service.queue }

/-- Ends a service: its queue is dropped, and its store with the timers. -/
def stop (service : Service W) : Service W :=
  { service with
    store := { service.store with alarms := service.store.alarms.drop }
    queue := []
    isRunning := false }

/-- The last handle is dropped. -/
def dropHandle (service : Service W) : Service W :=
  { service with isHeld := false }

/-- Runs an operation of the store; gives its error, if there is one. -/
def operate (op : StoreM W Timers Unit) (service : Service W) : Option StoreError × Service W :=
  match op service.store with
  | .ok () store => (none, { service with store })
  | .error e store => (some e, { service with store })

/-- The answer to an operation of the store. -/
def replyTo : Option StoreError → Reply
  | none => .done
  | some e => .failed e

variable [ProviderHost W]

/-- Does what a request asks for, and answers it. -/
def answer (request : Request) (service : Service W) : Reply × Service W :=
  let operating (op : StoreM W Timers Unit) : Reply × Service W :=
    let (error, service) := service.operate op
    (replyTo error, service)
  match request with
  | .register name file => operating (Store.register name file)
  | .setUserFiles files => operating (modify (·.setUserFiles files))
  | .switchUserFiles files => operating (Store.switchUserFiles files)
  | .write force => operating (Store.write force)
  | .read => operating Store.read
  | .isPresent => (.presence service.store.isPresent, service)
  | .setVerbose verbose => operating (modify (·.setVerbose verbose))
  | .dump => (.text service.store.dump, service)
  | .shutdown =>
    let (reply, service) := operating (Store.write true)
    (reply, service.stop)

/-- Takes up the oldest message. A service that is not held and has nothing left to do writes what is
buffered and ends. Errors of alarms and of this last write go nowhere. -/
def step (service : Service W) : Option Reply × Service W :=
  if service.isRunning then
    match service.queue with
    | .request request :: queue =>
      let (reply, service) := answer request { service with queue }
      (some reply, service)
    | .alarm id :: queue =>
      (none, ({ service with queue }.operate (Store.onAlarm id)).2)
    | [] =>
      if service.isHeld then (none, service) else (none, (service.operate (Store.write true)).2.stop)
  else (none, service)

/-- Takes up messages until as many as given have been taken up; gives the last answer. -/
def steps : Nat → Option Reply → Service W → Option Reply × Service W
  | 0, last, service => (last, service)
  | n + 1, last, service =>
    let (reply, service) := service.step
    steps n (reply <|> last) service

/-- Takes up all that has arrived; gives the last answer. -/
def drain (service : Service W) : Option Reply × Service W :=
  steps service.queue.length none service

/-- Lets the timers run out that are due until the given time, in the order of their times, and takes
up their alarms. At most `n` of them run out. -/
def ring (time : Nat) : Nat → Service W → Service W
  | 0, service => service
  | n + 1, service =>
    match service.store.alarms.firstDue? time with
    | none => service
    | some (task, alarm) =>
      let clock := { service.store.clock with now := max service.store.clock.now alarm.due }
      let service := { service with store := { service.store with clock } }
      ring time n (service.expire task).drain.2

/-- Lets all timers run out that are due until the given time. -/
def ringUntil (time : Nat) (service : Service W) : Service W :=
  service.ring time service.store.alarms.sleeping.length

/-- A client asks for something and waits for the answer. An alarm that is due at once goes off before
the client goes on. -/
def call (request : Request) (service : Service W) : Reply × Service W :=
  if service.isRunning && service.isHeld then
    let (reply, service) := (service.send request).drain
    (reply.getD .closed, service.ringUntil service.store.clock.now)
  else (.closed, service)

/-- A client waits for some time, in milliseconds. -/
def sleep (millis : Nat) (service : Service W) : Service W :=
  let wake := service.store.clock.now + 1000 * millis
  let service := service.ringUntil wake
  { service with store := { service.store with clock := { service.store.clock with now := wake } } }

/-- A client drops its handle and waits for the end of the service. -/
def close (service : Service W) : Service W :=
  let service := service.dropHandle.drain.2
  service.step.2

end Service

end SectionStore
