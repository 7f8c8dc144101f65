import SectionStore.Proofs.Store.Operations
import SectionStore.Proofs.Store.Reading
import SectionStore.Proofs.Store.Updates

/-!
# Memory and disk at rest

Providers in memory and the file that they are kept in meet when a document is built from them, and
when they are read from the disk. `Contact` records the content of the last such meeting, and
whether a newer document was waiting in the buffer then. As long as nothing fails, a provider
without new data holds what was seen last, and that is the newest content of the file unless a newer
one was waiting (`InStep`). So at rest memory and disk agree, unless the last contact was a reading
that ignored a buffer (`memory_at_rest`). Then the alarm has committed the buffer since, and memory
is behind the file (`read_before_alarm_leaves_memory_behind`).
-/

namespace SectionStore

/-- The payload that the content of a file has for a provider. It is empty if there is no file, or
no section of that name in it. -/
def IsStored (content : Option ByteArray) (name : String) (payload : ByteArray) : Prop :=
  ∃ found, content.mapM Envelope.decode = .ok found ∧
    payload = (found.bind (·.payloadOf? name)).getD ByteArray.empty

instance decidableIsStored (content : Option ByteArray) (name : String) (payload : ByteArray) :
    Decidable (IsStored content name payload) :=
  match decoded : content.mapM Envelope.decode with
  | .ok found =>
    decidable_of_iff (payload = (found.bind (·.payloadOf? name)).getD ByteArray.empty) <| by
      constructor
      · exact fun same => ⟨found, decoded, same⟩
      · rintro ⟨other, decoded', same⟩
        cases decoded.symm.trans decoded'
        exact same
  | .error _ => .isFalse fun ⟨_, decoded', _⟩ => by cases decoded.symm.trans decoded'

theorem isStored_of_holds {document : ByteArray} {name : String} {payload : ByteArray}
    (holds : Envelope.Holds document name payload) : IsStored (some document) name payload := by
  obtain ⟨envelope, decoded, found⟩ := holds
  refine ⟨some envelope, mapM_some_eq_ok_iff.2 ⟨envelope, decoded, rfl⟩, ?_⟩
  rw [Option.bind_some, Envelope.payloadOf?, found]
  rfl

namespace Store

open Holdings Memory MemoryProvider

/-! ### Runs -/

/-- What is done with a store and its providers in memory. -/
inductive Use where
  | set (name : String) (payload : ByteArray)
  | write (force : Bool)
  | read
  /-- The oldest alarm goes off. -/
  | fire
  /-- The store is told of an alarm that went off. -/
  | deliver (id : AlarmId)

def Use.operation : Use → Operation Memory
  | .set name payload => .change (·.update name (·.set payload))
  | .write force => .write force
  | .read => .read
  | .fire => .fire
  | .deliver id => .deliver id

/-- When the providers of a file were last in contact with its content. -/
structure Contact where
  /-- The content that they had then. -/
  seen : Option ByteArray
  /-- Did a newer document wait in the buffer? -/
  behind : Bool

/-- The last contact for the file of each path, after a use that succeeded. A document that is built
is a contact, and so is the content on disk that is read. -/
def Use.contacts (use : Use) (s : Store Memory) (contacts : Path → Contact) (path : Path) :
    Contact :=
  match use with
  | .write _ =>
    match Serving.lastDocument? path s.holdings.servings with
    | some document => ⟨some document, false⟩
    | none => contacts path
  | .read => ⟨s.disk.files.content? path,
      s.files.any fun file => decide (file.path = path) && file.hasPending⟩
  | _ => contacts path

/-- The stores that uses without a failure lead to, with the last contact for each file. -/
inductive Reaches (start : Store Memory) : Store Memory → (Path → Contact) → Prop where
  | start : Reaches start start fun _ => ⟨none, false⟩
  | use {s s' : Store Memory} {contacts : Path → Contact} (use : Use)
      (reaches : Reaches start s contacts) (run : use.operation.run s = .ok () s') :
      Reaches start s' (use.contacts s contacts)

/-! ### What all uses keep -/

/-- The files are separate and have ids of their own, the registered providers keep their payloads as
they are, and a file that cannot be read does not pass for one that is absent. -/
structure Steady (h : Holdings Memory) : Prop where
  separate : Separate h.disk.files h.files
  ids : h.files.Pairwise fun file other => file.id ≠ other.id
  reached : h.registry.Reached
  plain : h.providers.Plain (namesOfAll h.registry h.files)
  nested : h.disk.files.Nested
  honest : ∀ file ∈ h.files, h.disk.refuses file.path .read ≠ some .notFound

theorem Steady.distinct {h : Holdings Memory} (steady : Steady h) : Distinct h.files :=
  (steady.separate.and steady.ids).imp fun h => ⟨h.1.1, h.2⟩

theorem namesOfAll_bare (registry : Registry) (files : List StoreFile) :
    namesOfAll registry (files.map (·.bare)) = namesOfAll registry files := by
  rw [namesOfAll, List.flatMap_map]
  rfl

theorem Steady.of_keeps {old new : Holdings Memory} (keeps : Keeps old new)
    (sealing : ∀ name,
      (new.providers.provider name).sealing = (old.providers.provider name).sealing)
    (steady : Steady old) : Steady new := by
  have names : namesOfAll new.registry new.files = namesOfAll old.registry old.files := by
    rw [← namesOfAll_bare, keeps.files, namesOfAll_bare, keeps.registry]
  constructor
  · exact separate_of_bare keeps.files (steady.separate.congr keeps.directories)
  · exact keeps.pairwise_ids steady.ids
  · exact keeps.registry ▸ steady.reached
  · intro name inside
    rw [sealing]
    exact steady.plain name (names ▸ inside)
  · exact steady.nested.congr keeps.directories
  · intro file here
    obtain ⟨other, there, same⟩ := keeps.exists_file here
    rw [keeps.device, ← StoreFile.path_eq_of_bare same]
    exact steady.honest other there

/-- Who holds no new data has what was seen last, and that is the newest content unless a newer one
was waiting. -/
structure InStep (h : Holdings Memory) (contacts : Path → Contact) : Prop where
  steady : Steady h
  memory : ∀ file ∈ h.files, ∀ name ∈ h.registry.namesOf file.id,
    (h.providers.provider name).dirty = false →
      IsStored (contacts file.path).seen name (h.providers.provider name).payload
  newest : ∀ file ∈ h.files, (contacts file.path).behind = false →
    file.newest? h.disk = (contacts file.path).seen

variable {h : Holdings Memory} {contacts : Path → Contact} {s s' : Store Memory}

/-- A commit moves contents to the disk, and is no contact. -/
theorem InStep.committed (inStep : InStep h contacts) (done : h.commitFault = none) :
    InStep h.committed contacts := by
  have keeps := keeps_committed h
  refine ⟨inStep.steady.of_keeps keeps fun _ => rfl, fun file here => ?_, fun file here => ?_⟩
  · obtain ⟨other, there, same⟩ := keeps.exists_file here
    rw [← StoreFile.path_eq_of_bare same, ← StoreFile.id_eq_of_bare same]
    exact inStep.memory other there
  · obtain ⟨other, there, same, newest⟩ :=
      newest?_commitAll_of_ok inStep.steady.separate done here
    rw [StoreFile.path_eq_of_bare same]
    exact fun inTime => newest.trans (inStep.newest other there inTime)

/-- An alarm that is delivered without a failure is no contact. -/
theorem inStep_onAlarm {id : AlarmId} (inStep : InStep s.holdings contacts)
    (run : onAlarm id s = .ok () s') : InStep s'.holdings contacts := by
  rcases onAlarm_eq_ok run with same | ⟨done, moved⟩
  · exact same ▸ inStep
  · exact moved ▸ inStep.committed done

/-- New data is not compared with anything before it has been written. -/
theorem inStep_set (name : String) (payload : ByteArray) (inStep : InStep s.holdings contacts) :
    InStep ({ s with providers := s.providers.update name (·.set payload) } : Store Memory).holdings
      contacts := by
  have provider (other : String) : (s.providers.update name (·.set payload)).provider other =
      if other = name then (s.providers.provider name).set payload
      else s.providers.provider other := rfl
  have keeps : Keeps s.holdings
      ({ s with providers := s.providers.update name (·.set payload) } : Store Memory).holdings :=
    ⟨rfl, rfl, rfl, .rfl, rfl⟩
  refine ⟨inStep.steady.of_keeps keeps fun other => ?_, fun file here other inside clean => ?_,
    inStep.newest⟩
  · show ((s.providers.update name (·.set payload)).provider other).sealing = _
    rw [provider]
    split
    · rename_i same
      rw [same]
      rfl
    · rfl
  · have clean' : ((s.providers.update name (·.set payload)).provider other).dirty = false := clean
    show IsStored _ _ ((s.providers.update name (·.set payload)).provider other).payload
    rw [provider] at clean' ⊢
    split at clean'
    · cases clean'
    · rename_i differ
      rw [if_neg differ]
      exact inStep.memory file here other inside clean'

/-! ### Writing -/

/-- After a refresh that succeeds, a document was built of the payloads of a file, or none of its
providers had new data and none has noticed. -/
theorem refreshAll_of_ok {registry : Registry} {files : List StoreFile} {m : Memory}
    (reached : registry.Reached) (distinct : Distinct files)
    (plain : m.Plain (namesOfAll registry files))
    (done : ∃ isNew, (refreshAll registry files m).2.2 = .ok isNew) :
    ∀ file ∈ files,
      (Serving.lastDocument? file.path (Store.servings registry files m) = none ∧
          m.Clean (registry.namesOf file.id)) ∨
        ∃ document,
          Serving.lastDocument? file.path (Store.servings registry files m) = some document ∧
            ∀ name ∈ registry.namesOf file.id,
              Envelope.Holds document name (m.provider name).payload := by
  induction files generalizing m with
  | nil => exact fun _ h => (by cases h)
  | cons file rest ih =>
    obtain ⟨apart, distinct'⟩ := List.pairwise_cons.1 distinct
    obtain ⟨result, m₁, first, further⟩ := refreshAll_cons_ok done
    obtain ⟨here, others⟩ := lastDocument?_servings_cons (fun other h => (apart other h).1) first
    -- the attempt for the first file is no contact for the others, and leaves their providers alone
    rcases refresh_plain (plain_head plain) with
      ⟨run, recorded, clean⟩ | ⟨document, m', run, recorded, served, -, encoded⟩ | ⟨e, m', run, -⟩
    · rw [first] at run
      cases run
      intro other inside
      rcases List.mem_cons.1 inside with rfl | there
      · exact .inl ⟨by rw [here, recorded]; rfl, clean⟩
      · rw [others other there]
        exact ih distinct' (plain_rest plain (.refl [] m)) further other there
    · rw [first] at run
      cases run
      intro other inside
      rcases List.mem_cons.1 inside with rfl | there
      · refine .inr ⟨document, ?_, fun name inside => Envelope.holds_of_encode encoded inside⟩
        rw [here, recorded]
        simp [Serving.lastDocument?]
      · rw [others other there]
        have same : ∀ name ∈ registry.namesOf other.id, m₁.provider name = m.provider name := by
          intro name inside
          exact served.other name (not_mem_namesOf reached (apart other there).2.symm inside)
        rcases ih distinct' (plain_rest plain served) further other there with
          ⟨nothing, clean⟩ | ⟨newest, built, holds⟩
        · exact .inl ⟨nothing, fun name inside => same name inside ▸ clean name inside⟩
        · exact .inr ⟨newest, built, fun name inside => same name inside ▸ holds name inside⟩
    · rw [first] at run
      cases run

/-- A refresh that succeeds brings files and providers in step where there is new data. -/
theorem InStep.refreshed (inStep : InStep h contacts)
    (done : ∃ isNew, h.refreshResult = .ok isNew) :
    InStep h.refreshed fun path =>
      match Serving.lastDocument? path h.servings with
      | some document => ⟨some document, false⟩
      | none => contacts path := by
  have keeps := keeps_refreshed h
  have steady := inStep.steady
  have served := served_refreshAll steady.plain
  have built := refreshAll_of_ok steady.reached steady.distinct steady.plain done
  refine ⟨steady.of_keeps keeps served.sealing, fun file here name inside clean => ?_,
    fun file here inTime => ?_⟩
  · obtain ⟨other, there, same⟩ := keeps.exists_file here
    rw [← StoreFile.path_eq_of_bare same]
    rw [keeps.registry, ← StoreFile.id_eq_of_bare same] at inside
    have payload : (h.refreshed.providers.provider name).payload =
        (h.providers.provider name).payload := served.payload name
    rw [payload]
    rcases built other there with ⟨nothing, idle⟩ | ⟨document, newest, holds⟩
    · have log : Serving.lastDocument? other.path h.servings = none := nothing
      rw [log]
      exact inStep.memory other there name inside (idle name inside)
    · have log : Serving.lastDocument? other.path h.servings = some document := newest
      rw [log]
      exact isStored_of_holds (holds name inside)
  · rw [files_refreshed steady.separate] at here
    obtain ⟨other, there, rfl⟩ := List.mem_map.1 here
    rw [StoreFile.path_served] at inTime ⊢
    cases log : Serving.lastDocument? other.path h.servings with
    | some document => simp [StoreFile.newest?, StoreFile.served, log]
    | none =>
      rw [log] at inTime
      simp only [StoreFile.newest?, StoreFile.served, log]
      exact inStep.newest other there inTime

/-! ### Reading -/

/-- What is read from a device that does not pass a fault for an absent file. -/
theorem content?_of_read? {disk : Disk} {path : Path} {content : Option ByteArray}
    (nested : disk.files.Nested) (honest : disk.refuses path .read ≠ some .notFound)
    (read : disk.read? path = .ok content) : disk.files.content? path = content := by
  unfold Disk.read? at read
  cases refused : disk.refuses path .read with
  | some fault =>
    rw [refused] at read honest
    cases fault <;> first | exact absurd rfl honest | cases read
  | none =>
    rw [refused, Option.elim_none] at read
    cases found : disk.files.read path with
    | ok octets =>
      rw [found] at read
      cases read
      exact FileSystem.content?_of_read nested found
    | error fault =>
      rw [found] at read
      have nothing : disk.files.content? path = none := by
        cases there : disk.files.content? path with
        | none => rfl
        | some octets =>
          rw [FileSystem.read_of_content? there] at found
          cases found
      cases fault <;> first | exact nothing.trans (Except.ok.inj read) | cases read

theorem keeps_read (s : Store Memory) : Keeps s.holdings (after Store.read s).holdings := by
  rw [holdings_read]
  exact ⟨rfl, rfl, rfl, .rfl, rfl⟩

/-- A reading that succeeds brings the providers in step with the disk. -/
theorem inStep_read (inStep : InStep s.holdings contacts) (run : Store.read s = .ok () s') :
    InStep s'.holdings (Use.read.contacts s contacts) := by
  have steady := inStep.steady
  have final : after Store.read s = s' := by rw [after, run]
  have keeps := keeps_read s
  have moved := holdings_read s
  rw [final] at keeps moved
  have files : s'.files = s.files := congrArg Holdings.files moved
  have disk : s'.disk = s.disk := congrArg Holdings.disk moved
  have registry : s'.registry = s.registry := keeps.registry
  have read : readAll s.registry s.disk s.files (resetAll s.registry s.files s.providers) =
      .ok () s'.providers := by
    rcases timedReading_cases (readAll s.registry s.disk s.files)
        { s with providers := resetAll s.registry s.files s.providers } with
      ⟨-, done⟩ | ⟨failed, -⟩
    · rw [← final]
      exact done
    · exact absurd ⟨(), s', run⟩ failed
  have wiped := wiped_resetAll s.registry s.files s.providers
  obtain ⟨loaded, others⟩ := readAll_eq_ok steady.reached steady.ids read
  refine ⟨steady.of_keeps keeps fun name => ?_, fun file here name inside _ => ?_,
    fun file here inTime => ?_⟩
  · -- neither resetting a provider nor handing it a payload changes how it seals
    refine .trans ?_ (wiped.alike name).sealing
    by_cases served : ∃ file ∈ s.files, name ∈ s.registry.namesOf file.id
    · obtain ⟨file, here, inside⟩ := served
      obtain ⟨found, -, taken⟩ := loaded file here
      obtain ⟨opened, -, now⟩ := taken name inside
      exact congrArg (·.sealing) now
    · exact congrArg (·.sealing) (others name fun file here inside => served ⟨file, here, inside⟩)
  · have here : file ∈ s.files := files ▸ here
    have inside : name ∈ s.registry.namesOf file.id := registry ▸ inside
    obtain ⟨found, ⟨content, found?, decoded⟩, taken⟩ := loaded file here
    obtain ⟨opened, opens, now⟩ := taken name inside
    have plain : ((resetAll s.registry s.files s.providers).provider name).sealing = false :=
      (wiped.alike name).sealing.trans
        (steady.plain name (List.mem_flatMap.2 ⟨file, here, inside⟩))
    have payload : (s'.providers.provider name).payload =
        (found.bind (·.payloadOf? name)).getD ByteArray.empty := by
      rw [now, ← mapM_openPayload_of_plain plain opens]
      rfl
    have stored : s.disk.files.content? file.path = content :=
      content?_of_read? steady.nested (steady.honest file here) found?
    show IsStored (s.disk.files.content? file.path) name (s'.providers.provider name).payload
    rw [stored, payload]
    exact ⟨found, decoded, rfl⟩
  · have here : file ∈ s.files := files ▸ here
    have empty : file.pending = none := by
      have nobody := List.any_eq_false.1 inTime file here
      simpa [StoreFile.hasPending] using nobody
    show file.newest? s'.disk = s.disk.files.content? file.path
    rw [StoreFile.newest?, empty, disk]
    rfl

/-- Every use that succeeds keeps memory and files in step. -/
theorem inStep_use (use : Use) (inStep : InStep s.holdings contacts)
    (run : use.operation.run s = .ok () s') : InStep s'.holdings (use.contacts s contacts) := by
  cases use with
  | set name payload =>
    cases run
    exact inStep_set name payload inStep
  | write force =>
    cases force with
    | false =>
      obtain ⟨done, moved⟩ := write_false_eq_ok run
      exact moved ▸ inStep.refreshed done
    | true =>
      obtain ⟨done, committed, moved⟩ := write_true_eq_ok run
      exact moved ▸ (inStep.refreshed done).committed committed
  | read => exact inStep_read inStep run
  | fire =>
    cases run
    exact (holdings_fireOldest s).symm ▸ inStep
  | deliver id => exact inStep_onAlarm inStep run

/-! ### Whole runs -/

/-- A store whose files are absent, and whose providers have no data, unless it is new. -/
structure Fresh (s : Store Memory) : Prop where
  steady : Steady s.holdings
  absent : ∀ file ∈ s.files, s.disk.files.content? file.path = none
  unbuffered : ∀ file ∈ s.files, file.pending = none
  blank : ∀ file ∈ s.files, ∀ name ∈ s.registry.namesOf file.id,
    (s.providers.provider name).dirty = false →
      (s.providers.provider name).payload = ByteArray.empty

theorem inStep_start (fresh : Fresh s) : InStep s.holdings fun _ => ⟨none, false⟩ := by
  refine ⟨fresh.steady, fun file here name inside clean => ?_, fun file here _ => ?_⟩
  · exact ⟨none, rfl, fresh.blank file here name inside clean⟩
  · have empty : file.pending = none := fresh.unbuffered file here
    rw [StoreFile.newest?, empty]
    exact fresh.absent file here

theorem inStep_reaches {start : Store Memory} (fresh : Fresh start)
    (reaches : Reaches start s contacts) : InStep s.holdings contacts := by
  induction reaches with
  | start => exact inStep_start fresh
  | use use _ run ih => exact inStep_use use ih run

/-- In a run without failures, a provider that has no new data holds what its file was last seen to
have for it. If the file has no buffer either, that is what it has on disk, unless the last contact
ignored a buffer. -/
theorem memory_at_rest {start : Store Memory} (fresh : Fresh start)
    (reaches : Reaches start s contacts) {file : StoreFile} (here : file ∈ s.files)
    (empty : file.pending = none) {name : String} (inside : name ∈ s.registry.namesOf file.id)
    (clean : (s.providers.provider name).dirty = false) :
    IsStored (contacts file.path).seen name (s.providers.provider name).payload ∧
      ((contacts file.path).behind = false →
        IsStored (s.disk.files.content? file.path) name (s.providers.provider name).payload) := by
  have inStep := inStep_reaches fresh reaches
  have seen := inStep.memory file here name inside clean
  refine ⟨seen, fun inTime => ?_⟩
  have stored : file.newest? s.disk = (contacts file.path).seen := inStep.newest file here inTime
  rw [StoreFile.newest?, empty] at stored
  exact (show s.disk.files.content? file.path = _ from stored) ▸ seen

/-! ### A reading between a write and its alarm -/

/-- The store that uses lead to if all succeed, with the last contacts. -/
def useAll : List Use → Store Memory → (Path → Contact) → Option (Store Memory × (Path → Contact))
  | [], s, contacts => some (s, contacts)
  | use :: uses, s, contacts =>
    match use.operation.run s with
    | .ok _ s' => useAll uses s' (use.contacts s contacts)
    | .error _ _ => none

theorem Reaches.useAll {start s s' : Store Memory} {contacts contacts' : Path → Contact}
    (reaches : Reaches start s contacts) {uses : List Use}
    (run : useAll uses s contacts = some (s', contacts')) : Reaches start s' contacts' := by
  induction uses generalizing s contacts with
  | nil =>
    cases run
    exact reaches
  | cons use uses ih =>
    rw [Store.useAll] at run
    cases step : use.operation.run s with
    | ok _ next =>
      rw [step] at run
      exact ih (.use use reaches step) run
    | error e next =>
      rw [step] at run
      cases run

theorem fresh_siblings : Fresh siblings := by
  have ready := ready_siblings
  have nested : FileSystem.new.Nested := by
    intro l here
    cases l with
    | nil => exact here
    | cons name rest => cases here
  refine ⟨⟨ready.separate, ready.ids, ready.reached, fun _ _ => rfl, nested, ?_⟩, ?_, ?_, ?_⟩
  all_goals
    intro file here
    obtain rfl := List.mem_singleton.1 here
  · exact fun refused => by cases refused
  · decide +kernel
  · rfl
  · exact fun _ _ _ => rfl

/-- Provider A is given data, a buffered write is made, and the alarm goes off after what else is
done. -/
def waitingUses (between : List Use) : List Use :=
  [.set "A" (Utf8.encode ['1']), .write false] ++ between ++ [.fire, .deliver 1]

/-- No provider has new data, and no file has a buffer. -/
def IsAtRest (s : Store Memory) : Prop :=
  ∀ file ∈ s.files, file.pending = none ∧
    ∀ name ∈ s.registry.namesOf file.id, (s.providers.provider name).dirty = false

instance (s : Store Memory) : Decidable s.IsAtRest :=
  inferInstanceAs (Decidable (∀ file ∈ s.files, file.pending = none ∧
    ∀ name ∈ s.registry.namesOf file.id, (s.providers.provider name).dirty = false))

/-- Where the uses lead that `waitingUses` lists. -/
theorem exists_reaches_waitingUses (between : List Use) {P : Store Memory → (Path → Contact) → Prop}
    [∀ s contacts, Decidable (P s contacts)]
    (check : (useAll (waitingUses between) siblings fun _ => ⟨none, false⟩).any
      (fun t => decide (P t.1 t.2)) = true) :
    ∃ s contacts, Reaches siblings s contacts ∧ P s contacts := by
  obtain ⟨⟨s, contacts⟩, run, holds⟩ := (Option.any_eq_true _ _).1 check
  exact ⟨s, contacts, Reaches.start.useAll run, of_decide_eq_true holds⟩

/-- With nothing in between, the file has the data. -/
theorem memory_at_rest_waitingUses :
    Fresh siblings ∧ ∃ s contacts, Reaches siblings s contacts ∧
      ∃ file ∈ s.files, file.pending = none ∧ "A" ∈ s.registry.namesOf file.id ∧
        (s.providers.provider "A").dirty = false ∧
        (s.providers.provider "A").payload = Utf8.encode ['1'] ∧
        IsStored (s.disk.files.content? file.path) "A" (s.providers.provider "A").payload := by
  obtain ⟨s, contacts, reaches, ⟨inside, inTime⟩, rest, payload⟩ :=
    exists_reaches_waitingUses [] (P := fun s contacts =>
      ("A" ∈ s.registry.namesOf s.shared.id ∧ (contacts s.shared.path).behind = false) ∧
        s.IsAtRest ∧ (s.providers.provider "A").payload = Utf8.encode ['1']) (by decide +kernel)
  obtain ⟨empty, clean⟩ := rest s.shared List.mem_cons_self
  exact ⟨fresh_siblings, s, contacts, reaches, s.shared, List.mem_cons_self, empty, inside,
    clean "A" inside, payload,
    (memory_at_rest fresh_siblings reaches List.mem_cons_self empty inside (clean "A" inside)).2
      inTime⟩

/-- With a reading in between, the provider loses the data although it is written, and nothing
fails. -/
theorem read_before_alarm_leaves_memory_behind :
    Fresh siblings ∧ ∃ s contacts, Reaches siblings s contacts ∧ s.IsAtRest ∧
      ∃ file ∈ s.files, "A" ∈ s.registry.namesOf file.id ∧
        IsStored (s.disk.files.content? file.path) "A" (Utf8.encode ['1']) ∧
        (s.providers.provider "A").payload = ByteArray.empty ∧
        ¬ IsStored (s.disk.files.content? file.path) "A" (s.providers.provider "A").payload := by
  obtain ⟨s, contacts, reaches, rest, behind⟩ :=
    exists_reaches_waitingUses [.read] (P := fun s _ =>
      s.IsAtRest ∧ "A" ∈ s.registry.namesOf s.shared.id ∧
        IsStored (s.disk.files.content? s.shared.path) "A" (Utf8.encode ['1']) ∧
        (s.providers.provider "A").payload = ByteArray.empty ∧
        ¬ IsStored (s.disk.files.content? s.shared.path) "A" (s.providers.provider "A").payload)
      (by decide +kernel)
  exact ⟨fresh_siblings, s, contacts, reaches, rest, s.shared, List.mem_cons_self, behind⟩

end Store

end SectionStore
