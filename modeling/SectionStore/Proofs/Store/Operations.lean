import SectionStore.Proofs.Running
import SectionStore.Proofs.Store.Holdings

/-!
# All that can happen to a store

`Operation` lists what is done to a store, and what its surroundings do: providers change, the
device and its files change, alarms go off. A run takes operations one after the other and goes on
after those that fail, from the state that they leave behind (`afterAll`). `Throughout` says that
something holds in every state that a run passes.
-/

namespace SectionStore.Store

variable {W : Type}

/-- What happens to a store. New files of the user come without a buffer. -/
inductive Operation (W : Type) where
  | register (name : String) (file : Option FileId)
  /-- The providers are given data, or change in another way of their own. -/
  | change (f : W → W)
  /-- The device and what is on it change. -/
  | device (f : Disk → Disk)
  | write (force : Bool)
  | read
  /-- The oldest alarm goes off. -/
  | fire
  /-- The store is told of an alarm that went off. -/
  | deliver (id : AlarmId)
  | install (files : List StoreFile) (unbuffered : ∀ file ∈ files, file.pending = none)
  | switch (files : List StoreFile) (unbuffered : ∀ file ∈ files, file.pending = none)

variable [ProviderHost W]

def Operation.run : Operation W → StoreM W Alarms Unit
  | .register name file => Store.register name file
  | .change f => modify fun s => { s with providers := f s.providers }
  | .device f => modify fun s => { s with disk := f s.disk }
  | .write force => Store.write force
  | .read => Store.read
  | .fire => modify fun s => (s.fireOldest?.map (·.2)).getD s
  | .deliver id => onAlarm id
  | .install files _ => modify (·.setUserFiles files)
  | .switch files _ => switchUserFiles files

/-- The store after all the operations, some of which may have failed. -/
def afterAll (operations : List (Operation W)) (s : Store W) : Store W :=
  operations.foldl (fun s operation => after operation.run s) s

variable {operations : List (Operation W)} {s : Store W}

/-- Something holds in every state that a run passes, of the state and the operation that is next,
if there is one. -/
def Throughout (P : Store W → Option (Operation W) → Prop) (operations : List (Operation W))
    (s : Store W) : Prop :=
  ∀ done next, done ++ next = operations → P (afterAll done s) next.head?

theorem throughout_nil {P : Store W → Option (Operation W) → Prop} :
    Throughout P [] s ↔ P s none := by
  constructor
  · intro always
    exact always [] [] rfl
  · intro now done next split
    obtain ⟨rfl, rfl⟩ := List.append_eq_nil_iff.1 split
    exact now

theorem throughout_cons {P : Store W → Option (Operation W) → Prop} {operation : Operation W} :
    Throughout P (operation :: operations) s ↔
      P s (some operation) ∧ Throughout P operations (after operation.run s) := by
  constructor
  · intro always
    refine ⟨always [] _ rfl, fun done next split => ?_⟩
    exact always (operation :: done) next (by rw [List.cons_append, split])
  · rintro ⟨now, later⟩ done next split
    cases done with
    | nil =>
      rw [List.nil_append] at split
      rw [split]
      exact now
    | cons first done =>
      obtain ⟨rfl, others⟩ := List.cons.inj split
      exact later done next others

end SectionStore.Store
