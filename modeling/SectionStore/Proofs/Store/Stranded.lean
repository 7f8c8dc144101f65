import SectionStore.Proofs.Store.Debounce
import SectionStore.Proofs.Store.Operations

/-!
# Buffers that wait for no alarm

A file may have a buffer while no alarm is armed; such a store is stranded (`IsStranded`). If failed
writes are discarded, a commit leaves no buffer whatever it comes to, and every other way to a
buffer sets the alarm, but for one: a write that has built the document of one file and fails at
another ends before the alarm is set (`Operation.Interrupts`). So a run strands a store exactly if
it comes to such a write (`unstranded_throughout_iff`).
-/

namespace SectionStore.Store

variable {W : Type}

/-- Some file has a buffer, and no alarm is armed that would commit it. -/
def IsStranded (s : Store W) : Prop :=
  s.hasBuffered = true ∧ s.isWaiting = false

/-! ### Refreshing -/

section Refresh

variable [ProviderHost W] {registry : Registry} {files : List StoreFile} {w : W}

/-- Has an attempt been successful? -/
def isBuilt (log : List Serving) : Bool :=
  log.any (·.document.isSome)

/-- After a refresh a file has a buffer if one had a buffer before, or if a document was built. -/
theorem any_hasPending_refreshAll (registry : Registry) (files : List StoreFile) (w : W) :
    (refreshAll registry files w).1.any (·.hasPending) =
      (files.any (·.hasPending) || isBuilt (servings registry files w)) := by
  induction files generalizing w with
  | nil => rfl
  | cons file rest ih =>
    rw [refreshAll_cons, servings, attempt, isBuilt]
    rcases refresh_cases registry file w with
      ⟨-, run⟩ | ⟨-, ⟨document, w', -, run⟩ | ⟨e, w', -, run⟩⟩
    · simp [run, ih, isBuilt, Bool.or_assoc]
    · simp [run, StoreFile.buffer, StoreFile.hasPending]
    · simp [run]

/-- A refresh that succeeds has found new data exactly if it built a document. -/
theorem isNew_of_refreshAll {isNew : Bool} (done : (refreshAll registry files w).2.2 = .ok isNew) :
    isNew = isBuilt (servings registry files w) := by
  induction files generalizing w isNew with
  | nil =>
    cases done
    rfl
  | cons file rest ih =>
    rw [refreshAll_cons] at done
    rw [servings, attempt, isBuilt]
    rcases refresh_cases registry file w with
      ⟨-, run⟩ | ⟨-, ⟨document, w', -, run⟩ | ⟨e, w', -, run⟩⟩
    · simp only [run, Bool.false_or] at done ⊢
      cases others : (refreshAll registry rest w).2.2 with
      | error e => simp [others, Except.map] at done
      | ok isNew' =>
        simp only [others, Except.map, Except.ok.injEq] at done
        rw [← done, ih others]
        rfl
    · simp only [run, Bool.true_or] at done ⊢
      cases others : (refreshAll registry rest w').2.2 with
      | error e => simp [others, Except.map] at done
      | ok isNew' =>
        simp only [others, Except.map, Except.ok.injEq] at done
        simp [← done, StoreFile.buffer]
    · simp [run] at done

end Refresh

/-! ### The alarm and the buffers -/

variable {s : Store W}

theorem isWaiting_arm (s : Store W) : s.arm.isWaiting = true := by
  unfold arm
  split
  · rename_i armed
    rw [isWaiting, armed]
    rfl
  · rfl

theorem hasBuffered_of_holdings {t : Store W} (same : t.holdings = s.holdings) :
    t.hasBuffered = s.hasBuffered :=
  congrArg (fun h : Holdings W => h.files.any (·.hasPending)) same

/-- If failed writes are discarded, a commit leaves no buffer, whatever it comes to. -/
theorem any_hasPending_commitAll (files : List StoreFile) (disk : Disk) :
    (commitAll .discard files disk).1.any (·.hasPending) = false := by
  induction files generalizing disk with
  | nil => rfl
  | cons file rest ih =>
    rw [commitAll_cons, List.any_cons, ih, Bool.or_false]
    rcases StoreFile.commit_cases file .discard disk with
      ⟨empty, same⟩ | ⟨content, -, -, ⟨-, -, -, same⟩ | ⟨-, -, same⟩⟩
    · simp [same, StoreFile.hasPending, empty]
    · simp [same, StoreFile.hasPending, StoreFile.bare]
    · simp [same, StoreFile.hasPending, StoreFile.bare]

theorem hasBuffered_commit (discards : s.config.policy = .discard) :
    (after commit s).hasBuffered = false := by
  have files : (after commit s).files = (commitAll .discard s.files s.disk).1 := by
    rw [← discards]
    exact congrArg Holdings.files (holdings_commit s)
  rw [hasBuffered, files]
  exact any_hasPending_commitAll s.files s.disk

theorem policy_commit (s : Store W) : (after commit s).config.policy = s.config.policy :=
  congrArg Holdings.policy (holdings_commit s)

/-! ### Operations -/

/-- Failed writes are discarded, and no buffer waits for nothing. -/
structure Sound (s : Store W) : Prop where
  discards : s.config.policy = .discard
  unstranded : ¬ s.IsStranded

theorem Sound.of_empty (discards : s.config.policy = .discard) (empty : s.hasBuffered = false) :
    Sound s := by
  refine ⟨discards, ?_⟩
  rintro ⟨buffered, -⟩
  rw [empty] at buffered
  cases buffered

theorem sound_commit (discards : s.config.policy = .discard) : Sound (after commit s) :=
  .of_empty ((policy_commit s).trans discards) (hasBuffered_commit discards)

/-- A sound store that waits for no alarm has no buffers. -/
theorem Sound.empty_of_idle (sound : Sound s) (idle : s.isWaiting = false) :
    s.hasBuffered = false := by
  cases buffered : s.hasBuffered with
  | false => rfl
  | true => exact absurd ⟨buffered, idle⟩ sound.unstranded

/-- What does not change the files and the alarm keeps a store sound. -/
theorem Sound.congr {t : Store W} (policy : t.config.policy = s.config.policy)
    (files : t.files = s.files) (armed : t.armed = s.armed) (sound : Sound s) : Sound t := by
  refine ⟨policy.trans sound.discards, ?_⟩
  rw [IsStranded, hasBuffered, files, isWaiting, armed]
  exact sound.unstranded

theorem sound_onAlarm (id : AlarmId) (sound : Sound s) : Sound (after (onAlarm id) s) := by
  unfold after onAlarm
  by_cases armed : s.armed = some id
  · rw [if_pos armed]
    exact sound_commit (s := { s with armed := none }) sound.discards
  · rw [if_neg armed]
    exact sound

theorem sound_fire (sound : Sound s) : Sound ((s.fireOldest?.map (·.2)).getD s) := by
  unfold fireOldest?
  cases s.alarms.fireOldest? with
  | none => exact sound
  | some fired => exact sound.congr (s := s) rfl rfl rfl

/-- New user files without buffers take none away from the shared file. -/
theorem sound_setUserFiles {files : List StoreFile}
    (unbuffered : ∀ file ∈ files, file.pending = none) (sound : Sound s) :
    Sound (s.setUserFiles files) := by
  have empty : files.any (·.hasPending) = false :=
    List.any_eq_false.2 fun file here => by simp [StoreFile.hasPending, unbuffered file here]
  refine ⟨sound.discards, ?_⟩
  rintro ⟨buffered, idle⟩
  refine sound.unstranded ⟨?_, idle⟩
  have shared : s.shared.hasPending = true := by
    simpa [hasBuffered, Store.files, setUserFiles, empty] using buffered
  simp [hasBuffered, Store.files, shared]

theorem sound_timedReading (reading : EStateM StoreError W Unit) (sound : Sound s) :
    Sound (after (timedReading reading) s) := by
  obtain ⟨providers, clock, metrics, same⟩ := after_timedReading reading s
  rw [same]
  exact sound.congr (s := s) rfl rfl rfl

section Operations

variable [ProviderHost W]

theorem sound_read (sound : Sound s) : Sound (after Store.read s) :=
  sound_timedReading _ (sound.congr (s := s) rfl rfl rfl)

/-- Whoever makes way for new files has committed what was buffered, or had nothing buffered. -/
theorem sound_leaveUserFiles (sound : Sound s) : Sound (after leaveUserFiles s) := by
  obtain ⟨t, origin, ends⟩ := after_leaveUserFiles_cases s
  obtain ⟨discards, empty⟩ : t.config.policy = .discard ∧ t.hasBuffered = false := by
    rcases origin with ⟨idle, rfl⟩ | ⟨-, rfl⟩
    · exact ⟨sound.discards, sound.empty_of_idle idle⟩
    · exact ⟨(policy_commit s).trans sound.discards, hasBuffered_commit sound.discards⟩
  rcases ends with same | ⟨providers, same⟩ <;> rw [same]
  · exact .of_empty discards empty
  · have kept := holdings_disarm ({ t with providers } : Store W)
    exact .of_empty ((congrArg Holdings.policy kept).trans discards)
      ((hasBuffered_of_holdings kept).trans empty)

theorem sound_switchUserFiles {files : List StoreFile}
    (unbuffered : ∀ file ∈ files, file.pending = none) (sound : Sound s) :
    Sound (after (switchUserFiles files) s) := by
  have left := sound_leaveUserFiles sound
  rcases after_switchUserFiles_cases files s with same | ⟨providers, clock, metrics, same⟩
  · exact same ▸ left
  · rw [same]
    have installed := sound_setUserFiles unbuffered left
    exact installed.congr (s := (after leaveUserFiles s).setUserFiles files) rfl rfl rfl

/-- The operation is a write that stops midway: it has built a document when it fails to build
another, and there is no alarm that the buffer could wait for. -/
def Operation.Interrupts : Operation W → Store W → Prop
  | .write _, s => (∃ e, s.holdings.refreshResult = .error e) ∧
      isBuilt s.holdings.servings = true ∧ s.isWaiting = false
  | _, _ => False

theorem isStranded_write_iff (force : Bool) (sound : Sound s) :
    (after (write force) s).IsStranded ↔ (Operation.write force).Interrupts s := by
  obtain ⟨t, refreshed, ⟨armed, -⟩, run⟩ := write_eq force s
  have discards : t.config.policy = .discard :=
    (congrArg Holdings.policy refreshed).trans sound.discards
  have buffered : t.hasBuffered = (s.hasBuffered || isBuilt s.holdings.servings) :=
    (congrArg (fun h : Holdings W => h.files.any (·.hasPending)) refreshed).trans
      (any_hasPending_refreshAll s.registry s.files s.providers)
  have waiting : t.isWaiting = s.isWaiting := by rw [isWaiting, armed, isWaiting]
  rw [after, run, Operation.Interrupts]
  cases result : s.holdings.refreshResult with
  | error e =>
    constructor
    · rintro ⟨held, idle⟩
      rw [waiting] at idle
      rw [buffered, sound.empty_of_idle idle, Bool.false_or] at held
      exact ⟨⟨e, rfl⟩, held, idle⟩
    · rintro ⟨-, built, idle⟩
      exact ⟨by rw [buffered, built, Bool.or_true], by rw [waiting, idle]⟩
  | ok isNew =>
    have new : isNew = isBuilt s.holdings.servings := isNew_of_refreshAll result
    have goesOn : ¬ ((∃ e, (.ok isNew : Except RegistryError Bool) = .error e) ∧
        isBuilt s.holdings.servings = true ∧ s.isWaiting = false) := by
      rintro ⟨⟨e, failed⟩, -⟩
      cases failed
    refine ⟨fun stranded => absurd stranded ?_, fun interrupts => absurd interrupts goesOn⟩
    cases force with
    | true =>
      by_cases due : (isNew || t.isWaiting || t.hasBuffered) = true
      · simp only [if_true, if_pos due]
        exact (sound_commit discards).unstranded
      · simp only [if_true, if_neg due]
        simp only [Bool.or_eq_true, not_or, Bool.not_eq_true] at due
        exact (Sound.of_empty discards due.2).unstranded
    | false =>
      cases isNew with
      | true =>
        rintro ⟨-, idle⟩
        have set : t.arm.isWaiting = false := idle
        rw [isWaiting_arm] at set
        cases set
      | false =>
        show ¬ t.IsStranded
        rw [← new, Bool.or_false] at buffered
        rw [IsStranded, buffered, waiting]
        exact sound.unstranded

/-- One operation strands a store exactly if it is a write that stops midway. -/
theorem isStranded_after_iff (operation : Operation W) (sound : Sound s) :
    (after operation.run s).config.policy = .discard ∧
      ((after operation.run s).IsStranded ↔ operation.Interrupts s) := by
  have keeps {t : Store W} (kept : Sound t) :
      t.config.policy = .discard ∧ (t.IsStranded ↔ False) :=
    ⟨kept.discards, kept.unstranded, False.elim⟩
  cases operation with
  | register name file =>
    apply keeps
    show Sound (after (register name file) s)
    unfold after register
    cases s.registry.register name file with
    | ok registry => exact sound.congr (s := s) rfl rfl rfl
    | error e => exact sound
  | change f => exact keeps (sound.congr (s := s) rfl rfl rfl)
  | device f => exact keeps (sound.congr (s := s) rfl rfl rfl)
  | write force =>
    exact ⟨(keeps_write force s).policy.trans sound.discards, isStranded_write_iff force sound⟩
  | read => exact keeps (sound_read sound)
  | fire => exact keeps (sound_fire sound)
  | deliver id => exact keeps (sound_onAlarm id sound)
  | install files unbuffered => exact keeps (sound_setUserFiles unbuffered sound)
  | switch files unbuffered => exact keeps (sound_switchUserFiles unbuffered sound)

/-! ### Runs -/

/-- In a run that starts without stranded buffers and discards failed writes, no store that is passed
is stranded exactly if no write stops midway. -/
theorem unstranded_throughout_iff (discards : s.config.policy = .discard)
    (unstranded : ¬ s.IsStranded) (operations : List (Operation W)) :
    Throughout (fun t _ => ¬ t.IsStranded) operations s ↔
      Throughout (fun t next => ∀ operation ∈ next, ¬ operation.Interrupts t) operations s := by
  induction operations generalizing s with
  | nil =>
    rw [throughout_nil, throughout_nil]
    exact ⟨fun _ _ none => (by cases none), fun _ => unstranded⟩
  | cons operation operations ih =>
    obtain ⟨discards', step⟩ := isStranded_after_iff operation ⟨discards, unstranded⟩
    rw [throughout_cons, throughout_cons]
    constructor
    · rintro ⟨-, later⟩
      have next : ¬ (after operation.run s).IsStranded := later [] operations rfl
      refine ⟨fun other here => ?_, (ih discards' next).1 later⟩
      obtain rfl := Option.mem_some_iff.1 here
      exact fun interrupts => next (step.2 interrupts)
    · rintro ⟨now, later⟩
      have next : ¬ (after operation.run s).IsStranded :=
        fun stranded => now operation rfl (step.1 stranded)
      exact ⟨unstranded, (ih discards' next).2 later⟩

/-! ### A write that stops midway -/

/-- The provider of the shared file and the one of the user's file are given data, the latter will
fail, and a buffered write is made. -/
def failingWrite : List (Operation Memory) :=
  [.change (·.update "A" (·.set (Utf8.encode ['1']))),
    .change (·.update "U" (·.set (Utf8.encode ['2']))),
    .change (·.update "U" fun p => { p with plan := ⟨some (.other "refused"), none, .any⟩ }),
    .write false]

/-- The store waits for the alarm of an earlier write. -/
def waitingStore : Store Memory :=
  afterAll [.change (·.update "A" (·.set (Utf8.encode ['0']))), .write false]
    (shareAndUser ⟨"u.xml"⟩)

/-- While an alarm is armed, a write that fails strands nothing. -/
theorem unstranded_throughout_waiting :
    ¬ waitingStore.IsStranded ∧ (afterAll failingWrite waitingStore).hasBuffered = true ∧
      Throughout (fun t _ => ¬ t.IsStranded) failingWrite waitingStore := by
  have waiting : waitingStore.isWaiting = true := by decide +kernel
  have unstranded : ¬ waitingStore.IsStranded := by
    rintro ⟨-, idle⟩
    rw [waiting] at idle
    cases idle
  refine ⟨unstranded, by decide +kernel, ?_⟩
  refine (unstranded_throughout_iff (by decide +kernel) unstranded failingWrite).2 ?_
  have none : ∀ {t : Store Memory} {f : Memory → Memory},
      ∀ operation ∈ some (Operation.change f), ¬ operation.Interrupts t := by
    intro t f operation here
    obtain rfl := Option.mem_some_iff.1 here
    exact id
  refine throughout_cons.2 ⟨none, throughout_cons.2 ⟨none, throughout_cons.2 ⟨none,
    throughout_cons.2 ⟨fun operation here => ?_, throughout_nil.2 fun _ here => by cases here⟩⟩⟩⟩
  obtain rfl := Option.mem_some_iff.1 here
  rintro ⟨-, -, idle⟩
  exact absurd (waiting.symm.trans idle) (by decide)

/-- A store that waits for nothing is stranded by the same write. -/
theorem stranded_by_failing_write :
    (shareAndUser ⟨"u.xml"⟩).config.policy = .discard ∧
      (shareAndUser ⟨"u.xml"⟩).hasBuffered = false ∧
      (afterAll failingWrite (shareAndUser ⟨"u.xml"⟩)).IsStranded := by
  refine ⟨by decide +kernel, by decide +kernel, ?_, ?_⟩ <;> decide +kernel

end Operations

end SectionStore.Store
