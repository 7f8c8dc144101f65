import SectionStore.Proofs.Envelope.Payloads
import SectionStore.Proofs.Registry.RoundTrip
import SectionStore.Proofs.Store.FileReading
import SectionStore.Proofs.Store.Holdings
import SectionStore.Proofs.Store.Rewriting

/-!
# Which errors blame a file

`StoreError.isParseError` says that the error lies in the content of a file. Of the errors of a
reading this is so exactly where it came to a file whose content is rejected (`MeetsRejected`). A
commit never fails in this way. A write can: where a provider hands out a payload that may not stand
in a document, the error is one of the envelope that could not be made, and these are counted as
well (`HandsOutMalformed`), although no file was looked at (`malformed_payload_blames_file`). The
main statement, `isParseError_iff`, has all operations, for any host.
-/

namespace SectionStore.Store

variable {W : Type} {registry : Registry} {disk : Disk} {file : StoreFile} {files : List StoreFile}
  {w w' : W} {s s' : Store W} {e : StoreError}

/-! ### Commits and the clock -/

theorem isParseError_of_commit (run : commit s = .error e s') : e.isParseError = false := by
  rw [commit_eq] at run
  split at run
  · cases run
    rfl
  · cases run

theorem isParseError_of_onAlarm {id : AlarmId} (run : onAlarm id s = .error e s') :
    e.isParseError = false := by
  unfold onAlarm at run
  split at run
  · exact isParseError_of_commit run
  · cases run

theorem exists_of_timedReading {reading : EStateM StoreError W Unit}
    (run : timedReading reading s = .error e s') : ∃ w, reading s.providers = .error e w := by
  cases result : reading s.providers with
  | error e₁ w =>
    have run' := timedReading_of_run (.error e₁) result
    cases run.symm.trans run'
    exact ⟨w, rfl⟩
  | ok u w =>
    have run' := timedReading_of_run (.ok u) result
    cases run.symm.trans run'

/-! ### Content that is rejected -/

/-- A reading that goes through the files one by one comes to a file whose content is rejected. -/
def MeetsRejected (registry : Registry) (disk : Disk)
    (reading : List StoreFile → EStateM StoreError W Unit) (files : List StoreFile) (w : W) :
    Prop :=
  ∃ before file after w', files = before ++ file :: after ∧ reading before w = .ok () w' ∧
    file.IsRejected registry disk

/-- The error of a loop lies in a file exactly where it comes to one that is rejected, if this is so
of its steps. -/
theorem isParseError_of_loop {step : StoreFile → EStateM StoreError W Unit}
    (blames : ∀ {file w e w'}, step file w = .error e w' →
      (e.isParseError = true ↔ file.IsRejected registry disk))
    (fails : ∀ {file}, file.IsRejected registry disk → ∀ w, ∃ e w', step file w = .error e w')
    (run : files.forM step w = .error e w') :
    e.isParseError = true ↔ MeetsRejected registry disk (·.forM step) files w := by
  constructor
  · intro parse
    obtain ⟨before, file, after, w₁, split, earlier, failed⟩ := forM_eq_error_iff.1 run
    exact ⟨before, file, after, w₁, split, earlier, (blames failed).1 parse⟩
  · rintro ⟨before, file, after, w₁, split, earlier, rejected⟩
    obtain ⟨e₁, w₂, failed⟩ := fails rejected w₁
    have run' := forM_eq_error_iff.2 ⟨before, file, after, w₁, split, earlier, failed⟩
    rw [run] at run'
    cases run'
    exact (blames failed).2 rejected

variable [ProviderHost W]

theorem readAll_eq_forM (registry : Registry) (disk : Disk) (files : List StoreFile) :
    (readAll registry disk files : EStateM StoreError W Unit) =
      files.forM (readFile registry disk) := by
  induction files with
  | nil => rfl
  | cons file rest ih => exact congrArg (readFile registry disk file >>= fun _ => ·) ih

/-- Resets the providers of a file and hands its content to them. -/
def resetAndRead (registry : Registry) (disk : Disk) (file : StoreFile) :
    EStateM StoreError W Unit := do
  modify (registry.reset file.id)
  readFile registry disk file

theorem resetAndReadAll_eq_forM (registry : Registry) (disk : Disk) (files : List StoreFile) :
    (resetAndReadAll registry disk files : EStateM StoreError W Unit) =
      files.forM (resetAndRead registry disk) := by
  induction files with
  | nil => rfl
  | cons file rest ih => exact congrArg (resetAndRead registry disk file >>= fun _ => ·) ih

/-- A file is to blame for its own error, and content that is rejected is one. -/
theorem isParseError_of_readFile (run : readFile registry disk file w = .error e w') :
    e.isParseError = true ↔ file.IsRejected registry disk := by
  obtain ⟨result, w₁, calls, law, plain, -⟩ := readFile_calls registry disk file w []
  rw [run] at plain
  cases result with
  | ok _ => cases plain
  | error e₁ =>
    cases plain
    exact law.isParseError_iff_isRejected

theorem readFile_of_isRejected (rejected : file.IsRejected registry disk) (w : W) :
    ∃ e w', readFile registry disk file w = .error e w' := by
  obtain ⟨result, w₁, calls, law, plain, -⟩ := readFile_calls registry disk file w []
  cases result with
  | error e => exact ⟨e, w₁, plain⟩
  | ok _ =>
    cases law with
    | delivered read asks => exact absurd rejected (not_isRejected_of_asks read asks)

theorem isParseError_of_readAll (run : readAll registry disk files w = .error e w') :
    e.isParseError = true ↔ MeetsRejected registry disk (readAll registry disk) files w := by
  have loop (files : List StoreFile) := @readAll_eq_forM W _ registry disk files
  rw [loop] at run
  rw [funext loop]
  exact isParseError_of_loop isParseError_of_readFile readFile_of_isRejected run

theorem isParseError_of_resetAndReadAll
    (run : resetAndReadAll registry disk files w = .error e w') :
    e.isParseError = true ↔
      MeetsRejected registry disk (resetAndReadAll registry disk) files w := by
  have loop (files : List StoreFile) := @resetAndReadAll_eq_forM W _ registry disk files
  rw [loop] at run
  rw [funext loop]
  exact isParseError_of_loop (fun failed => isParseError_of_readFile failed)
    (fun rejected w => readFile_of_isRejected rejected (registry.reset _ w)) run

/-! ### Documents that cannot be made -/

/-- The providers of the file have new data and hand out payloads of which one may not stand in a
document. -/
def HandsOutMalformed (registry : Registry) (file : StoreFile) (w : W) : Prop :=
  registry.hasNewData file.id w = true ∧
    ∃ sections w', sections.map (·.name) = registry.namesOf file.id ∧
      Registry.HandsOut file.cipher sections w w' ∧ ∃ s ∈ sections, ¬ s.PassesCheck

/-- A refresh comes to a file whose providers hand out such payloads. -/
def MeetsMalformed (registry : Registry) (files : List StoreFile) (w : W) : Prop :=
  ∃ before file after isNew, files = before ++ file :: after ∧
    (refreshAll registry before w).2.2 = .ok isNew ∧
    HandsOutMalformed registry file (refreshAll registry before w).2.1

/-- A provider that hands out nothing is to blame itself. -/
theorem isParseError_of_collect {cipher : Option Cipher} {names : List String} {e : RegistryError}
    (failed : Registry.collect cipher names w = .error e w') : e.isParseError = false := by
  induction names generalizing w with
  | nil => cases failed
  | cons name rest ih =>
    rw [Registry.collect_cons] at failed
    split at failed
    · cases failed
      rfl
    · split at failed
      · rename_i later
        cases failed
        exact ih later
      · cases failed

/-- A document is not made exactly if a payload may not stand in it. -/
theorem encode_eq_error_iff {sections : List Section}
    (named : ∀ s ∈ sections, Markup.isName s.name.toList = true) :
    (∃ e, Envelope.encode ⟨.current, sections⟩ = .error e) ↔ ∃ s ∈ sections, ¬ s.PassesCheck := by
  constructor
  · rintro ⟨e, failed⟩
    by_contra none
    obtain ⟨document, written⟩ := Envelope.exists_encode .current
      (fun s here => by_contra fun malformed => none ⟨s, here, malformed⟩) named
    rw [failed] at written
    cases written
  · rintro ⟨s, here, malformed⟩
    cases written : Envelope.encode ⟨.current, sections⟩ with
    | error e => exact ⟨e, rfl⟩
    | ok document => exact absurd (Envelope.passesCheck_of_encode written s here).1 malformed

theorem refresh_of_handsOutMalformed (reached : registry.Reached)
    (malformed : HandsOutMalformed registry file w) :
    ∃ e w', refresh registry file w = .error e w' ∧ e.isParseError = true := by
  obtain ⟨new, sections, w', named, handed, outside⟩ := malformed
  have names : ∀ s ∈ sections, Markup.isName s.name.toList = true := fun s here =>
    reached.isName_of_mem_namesOf (named ▸ List.mem_map_of_mem here)
  obtain ⟨e, failed⟩ := (encode_eq_error_iff names).2 outside
  refine ⟨.envelope file.id e, w', ?_, rfl⟩
  rw [refresh_of_collect new (Registry.collect_eq_ok_iff.2 ⟨named, handed⟩), failed]

/-- The error of a refresh lies in a file, it says, exactly if a payload may not stand in it. -/
theorem isParseError_of_refresh (reached : registry.Reached) {e : RegistryError}
    (run : refresh registry file w = .error e w') :
    e.isParseError = true ↔ HandsOutMalformed registry file w := by
  constructor
  · intro parse
    rcases refresh_cases registry file w with
      ⟨-, h⟩ | ⟨new, ⟨document, w₁, -, h⟩ | ⟨e₁, w₁, failed, -⟩⟩
    · rw [run] at h
      cases h
    · rw [run] at h
      cases h
    · cases collected : Registry.collect file.cipher (registry.namesOf file.id) w with
      | error e₂ w₂ =>
        simp only [refresh, new, if_true, Registry.serialize, run_bind, collected] at run
        cases run
        rw [isParseError_of_collect collected] at parse
        cases parse
      | ok sections w₂ =>
        obtain ⟨named, handed⟩ := Registry.collect_eq_ok_iff.1 collected
        have names : ∀ s ∈ sections, Markup.isName s.name.toList = true := fun s here =>
          reached.isName_of_mem_namesOf (named ▸ List.mem_map_of_mem here)
        refine ⟨new, sections, w₂, named, handed, (encode_eq_error_iff names).1 ?_⟩
        rw [refresh_of_collect new collected] at run
        cases written : Envelope.encode ⟨.current, sections⟩ with
        | error fault => exact ⟨fault, rfl⟩
        | ok document =>
          rw [written] at run
          cases run
  · intro malformed
    obtain ⟨e₁, w₁, run', parse⟩ := refresh_of_handsOutMalformed reached malformed
    rw [run] at run'
    cases run'
    exact parse

theorem map_eq_error_iff {ε α β : Type} {f : α → β} {result : Except ε α} {e : ε} :
    result.map f = .error e ↔ result = .error e := by
  cases result <;> simp [Except.map]

theorem refreshAll_cons_of_ok {file' : StoreFile} {rest : List StoreFile} {isNew : Bool}
    (run : refresh registry file w = .ok (file', isNew) w') :
    (refreshAll registry (file :: rest) w).2.1 = (refreshAll registry rest w').2.1 ∧
      (refreshAll registry (file :: rest) w).2.2 =
        (refreshAll registry rest w').2.2.map (isNew || ·) := by
  rw [refreshAll_cons, run]
  exact ⟨rfl, rfl⟩

/-- A refresh fails at the first file that fails, after those before it have been refreshed. -/
theorem refreshAll_eq_error_iff {e : RegistryError} :
    (refreshAll registry files w).2.2 = .error e ↔
      ∃ before file after isNew w', files = before ++ file :: after ∧
        (refreshAll registry before w).2.2 = .ok isNew ∧
        refresh registry file (refreshAll registry before w).2.1 = .error e w' := by
  induction files generalizing w with
  | nil =>
    refine ⟨fun failed => (by cases failed), ?_⟩
    rintro ⟨before, file, after, isNew, w', split, -⟩
    cases before <;> cases split
  | cons file rest ih =>
    cases first : refresh registry file w with
    | error e₁ w₁ =>
      have failed : (refreshAll registry (file :: rest) w).2.2 = .error e₁ := by
        rw [refreshAll_cons, first]
      rw [failed]
      constructor
      · intro same
        cases same
        exact ⟨[], file, rest, false, w₁, rfl, rfl, first⟩
      · rintro ⟨_ | ⟨file', before⟩, other, after, isNew, w', split, earlier, later⟩
        · cases split
          cases first.symm.trans later
          rfl
        · cases split
          obtain ⟨_, _, done, -⟩ := refreshAll_cons_ok ⟨isNew, earlier⟩
          rw [first] at done
          cases done
    | ok result w₁ =>
      obtain ⟨file', isNew⟩ := result
      have cons (rest : List StoreFile) := @refreshAll_cons_of_ok W _ _ _ _ _ _ rest _ first
      rw [(cons rest).2, map_eq_error_iff, ih]
      constructor
      · rintro ⟨before, other, after, isNew', w', rfl, earlier, later⟩
        refine ⟨file :: before, other, after, isNew || isNew', w', rfl, ?_, ?_⟩
        · rw [(cons before).2, earlier]
          rfl
        · rw [(cons before).1]
          exact later
      · rintro ⟨_ | ⟨file', before⟩, other, after, isNew', w', split, earlier, later⟩
        · cases split
          cases first.symm.trans later
        · cases split
          obtain ⟨_, w₂, done, isNew'', earlier⟩ := refreshAll_cons_ok ⟨isNew', earlier⟩
          rw [first] at done
          cases done
          rw [(cons before).1] at later
          exact ⟨before, other, after, isNew'', w', rfl, earlier, later⟩

theorem isParseError_of_refreshAll (reached : registry.Reached) {e : RegistryError}
    (failed : (refreshAll registry files w).2.2 = .error e) :
    e.isParseError = true ↔ MeetsMalformed registry files w := by
  constructor
  · intro parse
    obtain ⟨before, file, after, isNew, w', split, earlier, run⟩ := refreshAll_eq_error_iff.1 failed
    have malformed := (isParseError_of_refresh reached run).1 parse
    exact ⟨before, file, after, isNew, split, earlier, malformed⟩
  · rintro ⟨before, file, after, isNew, split, earlier, malformed⟩
    obtain ⟨e₁, w', run, parse⟩ := refresh_of_handsOutMalformed reached malformed
    have failed' := refreshAll_eq_error_iff.2 ⟨before, file, after, isNew, w', split, earlier, run⟩
    cases failed.symm.trans failed'
    exact parse

theorem not_meetsMalformed_of_ok (reached : registry.Reached) {isNew : Bool}
    (done : (refreshAll registry files w).2.2 = .ok isNew) : ¬ MeetsMalformed registry files w := by
  rintro ⟨before, file, after, isNew', split, earlier, malformed⟩
  obtain ⟨e, w', run, -⟩ := refresh_of_handsOutMalformed reached malformed
  have failed := refreshAll_eq_error_iff.2 ⟨before, file, after, isNew', w', split, earlier, run⟩
  cases done.symm.trans failed

/-! ### Operations -/

theorem isParseError_of_write (reached : s.registry.Reached) {force : Bool}
    (run : write force s = .error e s') :
    e.isParseError = true ↔ MeetsMalformed s.registry s.files s.providers := by
  obtain ⟨t, -, ⟨e₁, failed, run'⟩ | ⟨⟨isNew, done⟩, rest⟩⟩ := write_cases force s
  · cases run.symm.trans run'
    exact isParseError_of_refreshAll reached failed
  · have parse : e.isParseError = false := by
      rcases rest with ⟨-, run'⟩ | ⟨-, run'⟩ | ⟨-, -, run'⟩
      · cases run.symm.trans run'
      · exact isParseError_of_commit (run'.symm.trans run)
      · cases run.symm.trans run'
    rw [parse]
    exact ⟨fun h => (by cases h), fun h => absurd h (not_meetsMalformed_of_ok reached done)⟩

theorem isParseError_of_read (run : read s = .error e s') :
    e.isParseError = true ↔ MeetsRejected s.registry s.disk (readAll s.registry s.disk) s.files
      (resetAll s.registry s.files s.providers) := by
  obtain ⟨w, failed⟩ := exists_of_timedReading run
  exact isParseError_of_readAll failed

theorem isParseError_of_leaveUserFiles (run : leaveUserFiles s = .error e s') :
    e.isParseError = false := by
  unfold leaveUserFiles at run
  simp only [run_bind, run_get] at run
  cases waiting : s.isWaiting with
  | false =>
    simp only [waiting, Bool.false_eq_true, if_false] at run
    cases run
  | true =>
    simp only [waiting, if_true, run_bind] at run
    split at run
    · cases run
    · rename_i failed
      cases run
      exact isParseError_of_commit failed

theorem isParseError_of_switchUserFiles (run : switchUserFiles files s = .error e s') :
    e.isParseError = true ↔ ∃ t, leaveUserFiles s = .ok () t ∧
      MeetsRejected t.registry t.disk (resetAndReadAll t.registry t.disk) files t.providers := by
  cases left : leaveUserFiles s with
  | error e₁ t =>
    have stopped : switchUserFiles files s = .error e₁ t := by
      simp only [switchUserFiles, run_bind, left]
    cases run.symm.trans stopped
    rw [isParseError_of_leaveUserFiles left]
    refine ⟨fun parse => (by cases parse), ?_⟩
    rintro ⟨t, ended, -⟩
    cases ended
  | ok _ t =>
    rw [switchUserFiles_of_left files left] at run
    obtain ⟨w, failed⟩ := exists_of_timedReading run
    refine (isParseError_of_resetAndReadAll failed).trans ⟨fun met => ⟨t, rfl, met⟩, ?_⟩
    rintro ⟨t', same, met⟩
    cases same
    exact met

/-- The errors of an alarm never lie in a file. Those of a reading do exactly where it came to
content that is rejected. Those of a write are said to exactly where a provider handed out a payload
that may not stand in a document. -/
theorem isParseError_iff (reached : s.registry.Reached) :
    (∀ force e s', write force s = .error e s' →
        (e.isParseError = true ↔ MeetsMalformed s.registry s.files s.providers)) ∧
      (∀ id e s', onAlarm id s = .error e s' → e.isParseError = false) ∧
      (∀ e s', read s = .error e s' →
        (e.isParseError = true ↔ MeetsRejected s.registry s.disk (readAll s.registry s.disk) s.files
          (resetAll s.registry s.files s.providers))) ∧
      ∀ files e s', switchUserFiles files s = .error e s' →
        (e.isParseError = true ↔ ∃ t, leaveUserFiles s = .ok () t ∧
          MeetsRejected t.registry t.disk (resetAndReadAll t.registry t.disk) files t.providers) :=
  ⟨fun _ _ _ run => isParseError_of_write reached run, fun _ _ _ run => isParseError_of_onAlarm run,
    fun _ _ run => isParseError_of_read run,
    fun _ _ _ run => isParseError_of_switchUserFiles run⟩

/-! ### A payload that is blamed on a file -/

/-- A store with one provider, which has been given a payload with a tag that is not closed. -/
def unclosedPayload (fs : FileSystem) : Store Memory :=
  let providers := Memory.empty.update "A" (·.set (Utf8.encode "<open>".toList))
  after (register "A" (some .sharedGeneral))
    (Store.new .default (.new ⟨"s.xml"⟩ .sharedGeneral none) providers (.ofFiles fs) (.new false))

theorem reached_unclosedPayload (fs : FileSystem) : (unclosedPayload fs).registry.Reached :=
  @Registry.Reached.register _ _ "A" (some .sharedGeneral) (.new .primary .default) rfl

/-- Beside a file that is no envelope: the write fails for the payload, the reading for the file. -/
theorem isParseError_iff_unclosedPayload :
    let s := unclosedPayload (FileSystem.new.insert ["s.xml"] (.file (Utf8.encode ['?']) 0o600))
    (∃ e s', write true s = .error e s' ∧ e.isParseError = true) ∧
      (∃ e s', read s = .error e s' ∧ e.isParseError = true) ∧
      MeetsMalformed s.registry s.files s.providers ∧
      MeetsRejected s.registry s.disk (readAll s.registry s.disk) s.files
        (resetAll s.registry s.files s.providers) := by
  intro s
  obtain ⟨e, s', written, parse⟩ := @exists_error_of_match _ _ _ (write true) s
    (fun e _ => e.isParseError) (by decide +kernel)
  obtain ⟨e', s'', read, parse'⟩ := @exists_error_of_match _ _ _ read s
    (fun e _ => e.isParseError) (by decide +kernel)
  obtain ⟨ofWrite, -, ofRead, -⟩ := isParseError_iff (reached_unclosedPayload _)
  exact ⟨⟨e, s', written, parse⟩, ⟨e', s'', read, parse'⟩, (ofWrite true e s' written).1 parse,
    (ofRead e' s'' read).1 parse'⟩

/-- There is no file, and reading succeeds; but the write of a malformed payload fails with an error
that says that a file could not be parsed. -/
theorem malformed_payload_blames_file :
    let s := unclosedPayload .new
    (∀ file ∈ s.files, file.read? s.disk = .ok none) ∧ Succeeds read s ∧
      ∃ e s', write true s = .error e s' ∧ e.isParseError = true := by
  intro s
  refine ⟨by decide +kernel, by decide +kernel, ?_⟩
  exact @exists_error_of_match _ _ _ (write true) s (fun e _ => e.isParseError) (by decide +kernel)

end SectionStore.Store
