import SectionStore.Proofs.Registry.Delivery
import SectionStore.Proofs.Running
import SectionStore.Store

/-!
# What reading calls

Reading a file ends in one of four ways: its content is delivered; it cannot be read; it is
rejected; or a provider refuses what it is handed (`Store.FileCalls`, which has the hooks that are
called in each case). The error is that of a parser exactly for content that is rejected
(`FileCalls.isParseError_iff_isRejected`). `Store.ReadCalls` continues this over the files up to the
first that fails, and `Store.read_calls` is the record of a whole reading, for any host.
-/

namespace SectionStore

/-- The content of the file is no envelope, or one with a section that no provider of the file owns,
or one with a section that comes twice. -/
def StoreFile.IsRejected (file : StoreFile) (registry : Registry) (disk : Disk) : Prop :=
  ∃ octets, file.read? disk = .ok (some octets) ∧
    ∀ envelope, Envelope.decode octets = .ok envelope →
      (∃ s ∈ envelope.sections, s.name ∉ registry.namesOf file.id) ∨
        ¬ (envelope.sections.map (·.name)).Nodup

namespace Store

variable {registry : Registry} {disk : Disk} {file : StoreFile} {files : List StoreFile}
  {content : Option ByteArray} {version : Option DataVersion} {plan : List PlannedCall}
  {calls : List HookCall} {e : StoreError}

/-- What asks for calls is not rejected. -/
theorem not_isRejected_of_asks (read : file.read? disk = .ok content)
    (asks : registry.Asks file.id content version plan) : ¬ file.IsRejected registry disk := by
  rintro ⟨octets, read', rejected⟩
  rw [read] at read'
  cases read'
  cases asks with
  | document decoded known distinct =>
    rcases rejected _ decoded with ⟨s, here, foreign⟩ | twice
    · exact foreign (known s here)
    · exact twice distinct

theorem isRejected_iff_parse {octets : ByteArray} (read : file.read? disk = .ok (some octets)) :
    file.IsRejected registry disk ↔ ∃ e, registry.parse file.id octets = .error e := by
  constructor
  · rintro ⟨octets', read', rejected⟩
    rw [read] at read'
    cases read'
    cases parsed : registry.parse file.id octets with
    | error e => exact ⟨e, rfl⟩
    | ok envelope =>
      obtain ⟨decoded, known, distinct⟩ := Registry.parse_eq_ok_iff.1 parsed
      rcases rejected envelope decoded with ⟨s, here, foreign⟩ | twice
      · exact absurd (known s here) foreign
      · exact absurd distinct twice
  · rintro ⟨e, failed⟩
    refine ⟨octets, read, fun envelope decoded => ?_⟩
    by_contra accepted
    obtain ⟨known, distinct⟩ := not_or.1 accepted
    have parsed := Registry.parse_eq_ok_iff.2
      ⟨decoded, by simpa using known, not_not.1 distinct⟩
    rw [failed] at parsed
    cases parsed

/-! ### One file -/

/-- What reading a file can come to, with the hooks that are called. -/
inductive FileCalls (registry : Registry) (disk : Disk) (file : StoreFile) :
    Except StoreError Unit → List HookCall → Prop where
  | delivered {content : Option ByteArray} {version : Option DataVersion}
      {plan : List PlannedCall} (read : file.read? disk = .ok content)
      (asks : registry.Asks file.id content version plan) :
      FileCalls registry disk file (.ok ()) (plan.map (·.made version file.cipher none))
  | unread {e : FileError} (fault : file.read? disk = .error e) :
      FileCalls registry disk file (.error (.file e)) []
  | rejected {e : RegistryError} (rejected : file.IsRejected registry disk)
      (blamed : e.isParseError = true) : FileCalls registry disk file (.error (.registry e)) []
  | refused {content : Option ByteArray} {version : Option DataVersion}
      {before after : List PlannedCall} {failing : PlannedCall} (e : ProviderError)
      (read : file.read? disk = .ok content)
      (asks : registry.Asks file.id content version (before ++ failing :: after)) :
      FileCalls registry disk file (.error (.registry (.provider failing.name e)))
        (before.map (·.made version file.cipher none) ++
          failing.made version file.cipher (some e) :: (registry.namesOf file.id).map .reset)

/-- The error is that of a parser exactly for content that is rejected. -/
theorem FileCalls.isParseError_iff_isRejected
    (fails : FileCalls registry disk file (.error e) calls) :
    e.isParseError = true ↔ file.IsRejected registry disk := by
  cases fails with
  | unread fault =>
    refine ⟨fun parse => (by cases parse), ?_⟩
    rintro ⟨octets, read, -⟩
    rw [fault] at read
    cases read
  | rejected rejected blamed => exact ⟨fun _ => rejected, fun _ => blamed⟩
  | refused _ read asks =>
    refine ⟨fun parse => (by cases parse), fun rejected => ?_⟩
    exact absurd rejected (not_isRejected_of_asks read asks)

variable {W : Type} [ProviderHost W] {w w' : W}

/-- Reading a file makes the calls, and recording them makes no difference. -/
theorem readFile_calls (registry : Registry) (disk : Disk) (file : StoreFile) (w : W)
    (made : List HookCall) :
    ∃ result w' calls, FileCalls registry disk file result calls ∧
      readFile registry disk file w = Registry.ending result w' ∧
      readFile registry disk file (⟨w, made⟩ : Recorded W) =
        Registry.ending result ⟨w', made ++ calls⟩ := by
  cases read : file.read? disk with
  | error e =>
    refine ⟨_, w, [], .unread read, ?_, ?_⟩
    · simp only [readFile, read, Registry.ending]
    · simp only [readFile, read, Registry.ending, List.append_nil]
  | ok content =>
    by_cases asked : ∃ version plan, registry.Asks file.id content version plan
    · obtain ⟨version, plan, asks⟩ := asked
      rcases registry.deliver_cases file.id version file.cipher plan w made with
        ⟨w', run, recorded⟩ | ⟨before, failing, after, e, w', rfl, run, recorded⟩
      · refine ⟨_, w', _, .delivered read asks, ?_, ?_⟩
        · simp only [readFile, read, asks.deserialize, run, Registry.ending]
        · simp only [readFile, read, asks.deserialize, recorded, Registry.ending]
      · refine ⟨_, w', _, .refused e read asks, ?_, ?_⟩
        · simp only [readFile, read, asks.deserialize, run, Registry.ending]
        · simp only [readFile, read, asks.deserialize, recorded, Registry.ending]
    · have nothing : ∀ version plan, ¬ registry.Asks file.id content version plan :=
        fun version plan asks => asked ⟨version, plan, asks⟩
      obtain ⟨octets, e, rfl, failed⟩ := Registry.refused_of_not_asks nothing
      have rejected : file.IsRejected registry disk := (isRejected_iff_parse read).2 ⟨e, failed⟩
      refine ⟨_, w, [], .rejected rejected (Registry.isParseError_of_parse failed), ?_, ?_⟩
      · simp only [readFile, read, Registry.deserialize, failed]
        rfl
      · simp only [readFile, read, Registry.deserialize, failed, List.append_nil]
        rfl

/-! ### All files -/

/-- What reading files one after the other can come to, with the hooks that are called. -/
inductive ReadCalls (registry : Registry) (disk : Disk) :
    List StoreFile → Except StoreError Unit → List HookCall → Prop where
  | done : ReadCalls registry disk [] (.ok ()) []
  | another {file : StoreFile} {rest : List StoreFile} {result : Except StoreError Unit}
      {calls more : List HookCall} (first : FileCalls registry disk file (.ok ()) calls)
      (others : ReadCalls registry disk rest result more) :
      ReadCalls registry disk (file :: rest) result (calls ++ more)
  | stops {file : StoreFile} {rest : List StoreFile} {e : StoreError} {calls : List HookCall}
      (fails : FileCalls registry disk file (.error e) calls) :
      ReadCalls registry disk (file :: rest) (.error e) calls

theorem readAll_cons (registry : Registry) (disk : Disk) (file : StoreFile)
    (rest : List StoreFile) (w : W) :
    readAll registry disk (file :: rest) w =
      match readFile registry disk file w with
      | .ok _ w' => readAll registry disk rest w'
      | .error e w' => .error e w' := by
  show (readFile registry disk file >>= fun _ => readAll registry disk rest) w = _
  rw [run_bind]
  cases readFile registry disk file w <;> rfl

theorem readAll_calls (registry : Registry) (disk : Disk) (files : List StoreFile) (w : W)
    (made : List HookCall) :
    ∃ result w' calls, ReadCalls registry disk files result calls ∧
      readAll registry disk files w = Registry.ending result w' ∧
      readAll registry disk files (⟨w, made⟩ : Recorded W) =
        Registry.ending result ⟨w', made ++ calls⟩ := by
  induction files generalizing w made with
  | nil => exact ⟨.ok (), w, [], .done, rfl, by rw [List.append_nil]; rfl⟩
  | cons file rest ih =>
    obtain ⟨result, w₁, calls, law, run, recorded⟩ := readFile_calls registry disk file w made
    cases result with
    | error e =>
      refine ⟨.error e, w₁, calls, .stops law, ?_, ?_⟩
      · rw [readAll_cons, run]
        rfl
      · rw [readAll_cons, recorded]
        rfl
    | ok u =>
      obtain ⟨result, w₂, more, law', run', recorded'⟩ := ih w₁ (made ++ calls)
      refine ⟨result, w₂, calls ++ more, .another law law', ?_, ?_⟩
      · rw [readAll_cons, run]
        exact run'
      · rw [readAll_cons, recorded, ← List.append_assoc]
        exact recorded'

/-- The store with a record of the hooks that have been called. -/
def recorded (s : Store W) (calls : List HookCall) : Store (Recorded W) :=
  { s with providers := ⟨s.providers, calls⟩ }

/-- The resets that a reading begins with. -/
def resetCalls (registry : Registry) (files : List StoreFile) : List HookCall :=
  files.flatMap fun file => (registry.namesOf file.id).map .reset

theorem resetAll_recorded (registry : Registry) (files : List StoreFile) (w : W)
    (made : List HookCall) :
    resetAll registry files (⟨w, made⟩ : Recorded W) =
      ⟨resetAll registry files w, made ++ resetCalls registry files⟩ := by
  induction files generalizing w made with
  | nil => simp [resetAll, resetCalls]
  | cons file rest ih =>
    have first : resetAll registry (file :: rest) (⟨w, made⟩ : Recorded W) =
        resetAll registry rest (registry.reset file.id ⟨w, made⟩) := rfl
    rw [first, Registry.reset, Registry.resetNames_recorded, ih, List.append_assoc]
    rfl

/-- The store after a reading that has left the providers in a state. -/
def afterReading (s : Store W) (result : Except StoreError Unit) (w : W) : Store W :=
  match result with
  | .ok _ => ({ s.afterClock with providers := w } : Store W).sampled Metrics.noteRead s.clock.now
  | .error _ => { s.afterClock with providers := w }

@[simp] theorem providers_afterReading {W : Type} (s : Store W) (result : Except StoreError Unit)
    (w : W) : (s.afterReading result w).providers = w := by
  cases result <;> rfl

@[simp] theorem files_afterReading {W : Type} (s : Store W) (result : Except StoreError Unit)
    (w : W) : (s.afterReading result w).files = s.files := by
  cases result <;> rfl

@[simp] theorem disk_afterReading {W : Type} (s : Store W) (result : Except StoreError Unit)
    (w : W) : (s.afterReading result w).disk = s.disk := by
  cases result <;> rfl

theorem timedReading_of_run {W : Type} {reading : EStateM StoreError W Unit} {s : Store W} {w : W}
    (result : Except StoreError Unit) (run : reading s.providers = Registry.ending result w) :
    timedReading reading s = Registry.ending result (s.afterReading result w) := by
  have before : s.afterClock.providers = s.providers := rfl
  cases result <;> simp only [timedReading, before, run] <;> rfl

/-- Reading the files of a store resets all their providers, and then makes the calls. -/
theorem read_calls (s : Store W) :
    ∃ result w calls, ReadCalls s.registry s.disk s.files result calls ∧
      read s = Registry.ending result (s.afterReading result w) ∧
      read (s.recorded []) = Registry.ending result
        ((s.afterReading result w).recorded (resetCalls s.registry s.files ++ calls)) := by
  obtain ⟨result, w, calls, law, run, noted⟩ := readAll_calls s.registry s.disk s.files
    (resetAll s.registry s.files s.providers) (resetCalls s.registry s.files)
  refine ⟨result, w, calls, law, timedReading_of_run result run, ?_⟩
  have start := resetAll_recorded s.registry s.files s.providers []
  rw [List.nil_append] at start
  have unfolded : read (s.recorded []) = timedReading (readAll s.registry s.disk s.files)
      (({ s with providers := resetAll s.registry s.files s.providers } : Store W).recorded
        (resetCalls s.registry s.files)) :=
    congrArg (fun providers => timedReading (readAll s.registry s.disk s.files)
      ({ s with providers } : Store (Recorded W))) start
  rw [unfolded, timedReading_of_run result noted]
  cases result <;> rfl

end Store

end SectionStore
