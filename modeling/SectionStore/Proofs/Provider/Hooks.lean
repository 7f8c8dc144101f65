import SectionStore.Proofs.Provider.Loading
import SectionStore.Proofs.Store.FileReading

/-!
# Providers in memory with hooks of any kind

`Hooked` is the host of providers in memory of which each takes in what it is handed in a way of its
own: it may change itself, and succeed or fail, as it likes. What becomes of one is decided by the
calls that were made of it (`Undergoes`). What every hook keeps, a reading keeps
(`ProviderHost.Keeps.read`), and one such property is that the record of the calls leads to the
state of each provider (`Hooked.keeps_replays`).
-/

namespace SectionStore

/-! ### What hooks keep -/

/-- The hooks that a reading calls keep a property of the host. -/
structure ProviderHost.Keeps {W : Type} [ProviderHost W] (P : W → Prop) : Prop where
  reset : ∀ name w, P w → P (ProviderHost.reset name w)
  deserialize : ∀ name content version cipher,
    Keeping P (ProviderHost.deserialize (W := W) name content version cipher)

namespace ProviderHost.Keeps

variable {W : Type} [ProviderHost W] {P : W → Prop}

theorem resetNames (keeps : Keeps P) (names : List String) {w : W} (held : P w) :
    P (Registry.resetNames names w) := by
  induction names generalizing w with
  | nil => exact held
  | cons name rest ih => exact ih (keeps.reset name w held)

theorem resetAll (keeps : Keeps P) (registry : Registry) (files : List StoreFile) {w : W}
    (held : P w) : P (Store.resetAll registry files w) := by
  induction files generalizing w with
  | nil => exact held
  | cons file rest ih => exact ih (keeps.resetNames _ held)

theorem deliver (keeps : Keeps P) (registry : Registry) (file : FileId)
    (version : Option DataVersion) (cipher : Option Cipher) (plan : List PlannedCall) :
    Keeping P (registry.deliver (W := W) file version cipher plan) := by
  induction plan with
  | nil => exact .pure ()
  | cons call rest ih =>
    intro w held
    have kept := keeps.deserialize call.name call.content version cipher w held
    rw [Registry.deliver_cons]
    cases hook : ProviderHost.deserialize call.name call.content version cipher w with
    | ok _ w' =>
      rw [hook] at kept
      exact ih w' kept
    | error e w' =>
      rw [hook] at kept
      exact keeps.resetNames _ kept

theorem deserializeFile (keeps : Keeps P) (registry : Registry) (content : Option ByteArray)
    (file : FileId) (cipher : Option Cipher) :
    Keeping P (registry.deserialize (W := W) content file cipher) := by
  unfold Registry.deserialize
  split
  · exact keeps.deliver _ _ _ _ _
  · split
    · exact .throw _
    · exact keeps.deliver _ _ _ _ _

theorem readFile (keeps : Keeps P) (registry : Registry) (disk : Disk) (file : StoreFile) :
    Keeping P (Store.readFile (W := W) registry disk file) := by
  intro w held
  unfold Store.readFile
  cases file.read? disk with
  | error e => exact held
  | ok content =>
    have kept := keeps.deserializeFile registry content file.id file.cipher w held
    simp only
    cases run : registry.deserialize content file.id file.cipher w with
    | ok _ w' =>
      rw [run] at kept
      exact kept
    | error e w' =>
      rw [run] at kept
      exact kept

theorem readAll (keeps : Keeps P) (registry : Registry) (disk : Disk) (files : List StoreFile) :
    Keeping P (Store.readAll (W := W) registry disk files) := by
  induction files with
  | nil => exact .pure ()
  | cons file rest ih => exact .bind (keeps.readFile registry disk file) fun _ => ih

/-- What every hook keeps, a reading keeps. -/
theorem read (keeps : Keeps P) :
    Keeping (fun s : Store W => P s.providers) Store.read := by
  intro s held
  have kept := keeps.readAll s.registry s.disk s.files _ (keeps.resetAll s.registry s.files held)
  have unfolded : Store.read s = Store.timedReading (Store.readAll s.registry s.disk s.files)
      { s with providers := Store.resetAll s.registry s.files s.providers } := rfl
  rw [unfolded]
  cases run : Store.readAll s.registry s.disk s.files
      (Store.resetAll s.registry s.files s.providers) with
  | ok u w =>
    rw [run] at kept
    rw [Store.timedReading_of_run (.ok u) run]
    exact kept
  | error e w =>
    rw [run] at kept
    rw [Store.timedReading_of_run (.error e) run]
    exact kept

end ProviderHost.Keeps

/-! ### Calls of one provider -/

/-- The provider that is called. -/
def HookCall.name : HookCall → String
  | .serialize name _ _ => name
  | .deserialize name _ _ _ _ => name
  | .reset name => name

/-- The calls of one provider. -/
def own (name : String) (calls : List HookCall) : List HookCall :=
  calls.filter (·.name = name)

theorem own_cons_of_eq {name : String} {call : HookCall} (same : call.name = name)
    (rest : List HookCall) : own name (call :: rest) = call :: own name rest := by
  simp [own, same]

theorem own_cons_of_ne {name : String} {call : HookCall} (differ : call.name ≠ name)
    (rest : List HookCall) : own name (call :: rest) = own name rest := by
  simp [own, differ]

@[simp] theorem own_append (name : String) (calls more : List HookCall) :
    own name (calls ++ more) = own name calls ++ own name more :=
  List.filter_append ..

theorem own_eq_nil {name : String} {calls : List HookCall}
    (elsewhere : ∀ call ∈ calls, call.name ≠ name) : own name calls = [] :=
  List.filter_eq_nil_iff.2 fun call here => by simpa using elsewhere call here

/-! ### The host -/

/-- A provider in memory, with whatever else its hook keeps. -/
structure HookedProvider (σ : Type) where
  memory : MemoryProvider
  inner : σ

/-- The provider without data. What its hook keeps of its own is not reset. -/
def HookedProvider.reset {σ : Type} (p : HookedProvider σ) : HookedProvider σ :=
  { p with memory := p.memory.reset }

/-- What a provider does with what it is handed. -/
abbrev DeserializeHook (σ : Type) :=
  Option ByteArray → Option DataVersion → Option Cipher →
    EStateM ProviderError (HookedProvider σ) Unit

/-- The providers in memory, each with a hook of its own. -/
structure Hooked (σ : Type) where
  hook : String → DeserializeHook σ
  provider : String → HookedProvider σ

namespace Hooked

variable {σ : Type}

/-- The host with one provider replaced. -/
def put (w : Hooked σ) (name : String) (p : HookedProvider σ) : Hooked σ :=
  { w with provider := fun other => if other = name then p else w.provider other }

/-- An operation of one provider as an operation of the host. -/
def within {α : Type} (name : String) (op : EStateM ProviderError (HookedProvider σ) α) :
    EStateM ProviderError (Hooked σ) α := fun w =>
  match op (w.provider name) with
  | .ok a p => .ok a (w.put name p)
  | .error e p => .error e (w.put name p)

/-- Payloads are handed out as other providers in memory do it. -/
def serialize (cipher : Option Cipher) : EStateM ProviderError (HookedProvider σ) ByteArray :=
  fun p =>
    match MemoryProvider.serialize cipher p.memory with
    | .ok payload memory => .ok payload { p with memory }
    | .error e memory => .error e { p with memory }

instance : ProviderHost (Hooked σ) where
  serialize name cipher := within name (serialize cipher)
  deserialize name content version cipher w := within name (w.hook name content version cipher) w
  reset name w := w.put name (w.provider name).reset
  hasNewData name w := (w.provider name).memory.dirty

variable {w w' : Hooked σ} {name : String} {hook : DeserializeHook σ} {p p' : HookedProvider σ}
  {calls more : List HookCall}

/-- What a call that a reading makes does to a provider with the given hook. -/
inductive Effect (hook : DeserializeHook σ) (p : HookedProvider σ) :
    HookCall → HookedProvider σ → Prop where
  | reset (name : String) : Effect hook p (.reset name) p.reset
  | taken {p' : HookedProvider σ} {name : String} {content : Option ByteArray}
      {version : Option DataVersion} {cipher : Option Cipher}
      (run : hook content version cipher p = .ok () p') :
      Effect hook p (.deserialize name content version cipher none) p'
  | refused {p' : HookedProvider σ} {name : String} {content : Option ByteArray}
      {version : Option DataVersion} {cipher : Option Cipher} {e : ProviderError}
      (run : hook content version cipher p = .error e p') :
      Effect hook p (.deserialize name content version cipher (some e)) p'

/-- The calls lead from one state of a provider to another. -/
def Undergoes (hook : DeserializeHook σ) :
    List HookCall → HookedProvider σ → HookedProvider σ → Prop
  | [], p, p' => p' = p
  | call :: rest, p, p' => ∃ p₁, Effect hook p call p₁ ∧ Undergoes hook rest p₁ p'

theorem undergoes_append_iff :
    Undergoes hook (calls ++ more) p p' ↔
      ∃ p₁, Undergoes hook calls p p₁ ∧ Undergoes hook more p₁ p' := by
  induction calls generalizing p with
  | nil => simp [Undergoes]
  | cons call rest ih =>
    simp only [List.cons_append, Undergoes, ih]
    constructor
    · rintro ⟨p₁, first, p₂, others, last⟩
      exact ⟨p₂, ⟨p₁, first, others⟩, last⟩
    · rintro ⟨p₂, ⟨p₁, first, others⟩, last⟩
      exact ⟨p₁, first, p₂, others, last⟩

theorem undergoes_singleton_iff {call : HookCall} :
    Undergoes hook [call] p p' ↔ Effect hook p call p' := by
  simp [Undergoes]

/-- A reset comes last, so there is no data. -/
theorem isBlank_of_reset_last (calls : List HookCall)
    (run : Undergoes hook (calls ++ [.reset name]) p p') : p'.memory.IsBlank := by
  obtain ⟨p₁, -, last⟩ := undergoes_append_iff.1 run
  cases undergoes_singleton_iff.1 last
  exact ⟨rfl, rfl⟩

/-- The record of calls leads from the host at its beginning to the present one. -/
structure Replays (w : Hooked σ) (r : Recorded (Hooked σ)) : Prop where
  hook : r.host.hook = w.hook
  undergoes : ∀ name,
    Undergoes (w.hook name) (own name r.calls) (w.provider name) (r.host.provider name)

theorem replays_start (w : Hooked σ) : Replays w ⟨w, []⟩ :=
  ⟨rfl, fun _ => rfl⟩

/-- A further call, which changes the provider that is called and no other. -/
theorem Replays.concat {r : Recorded (Hooked σ)} {p' : HookedProvider σ} (replays : Replays w r)
    (call : HookCall) (effect : Effect (w.hook call.name) (r.host.provider call.name) call p') :
    Replays w ⟨r.host.put call.name p', r.calls ++ [call]⟩ := by
  refine ⟨replays.hook, fun name => ?_⟩
  by_cases here : call.name = name
  · subst here
    have last : own call.name [call] = [call] := own_cons_of_eq rfl []
    rw [own_append, last]
    refine undergoes_append_iff.2 ⟨_, replays.undergoes call.name, undergoes_singleton_iff.2 ?_⟩
    simpa [put] using effect
  · have last : own name [call] = [] := own_cons_of_ne here []
    rw [own_append, last, List.append_nil]
    simpa [put, Ne.symm here] using replays.undergoes name

theorem keeps_replays (w : Hooked σ) : ProviderHost.Keeps (Replays w) where
  reset name r replays := replays.concat (.reset name) (.reset name)
  deserialize name content version cipher := by
    intro r replays
    cases run : w.hook name content version cipher (r.host.provider name) with
    | ok _ p' =>
      have hook : ProviderHost.deserialize name content version cipher r.host =
          .ok () (r.host.put name p') := by
        simp only [ProviderHost.deserialize, within, replays.hook, run]
      have noted : ProviderHost.deserialize name content version cipher r =
          .ok () ⟨r.host.put name p', r.calls ++ [.deserialize name content version cipher none]⟩ :=
        Recorded.note_of_ok hook
      rw [noted]
      exact replays.concat (.deserialize name content version cipher none) (.taken run)
    | error e p' =>
      have hook : ProviderHost.deserialize name content version cipher r.host =
          .error e (r.host.put name p') := by
        simp only [ProviderHost.deserialize, within, replays.hook, run]
      have noted : ProviderHost.deserialize name content version cipher r = .error e
          ⟨r.host.put name p', r.calls ++ [.deserialize name content version cipher (some e)]⟩ :=
        Recorded.note_of_error hook
      rw [noted]
      exact replays.concat (.deserialize name content version cipher (some e)) (.refused run)

end Hooked

end SectionStore
