import SectionStore.Proofs.Envelope.RoundTrip
import SectionStore.Proofs.Provider.Serving
import SectionStore.Proofs.Registry.Reached
import SectionStore.Proofs.Store.Settled

/-!
# No update is lost

A store with retained failed writes is run through any order of new data, writes, alarms and
failures (`Traced.run`). For every provider that was given data, the documents that were built for
its file since then hold its payload, and before the first attempt the data is still marked as new
(`Current`). Together with `Settled` this gives `payload_committed`: after a forced write that
succeeds, the payload is on disk, unless attempts for its file have failed since it was given and
none succeeded. That exception cannot be left out: a provider that was served in an attempt that
then failed at a sibling counts as written (`sibling_failure_loses_update`). Nor may the paths of two
files lead to one place (`aliases_lose_update`).
-/

namespace SectionStore

/-- The provider with another plan for its serialize hook. -/
def MemoryProvider.planSerialize (p : MemoryProvider) (failure : Option ProviderError) :
    MemoryProvider :=
  { p with plan := { p.plan with serialize := failure } }

/-- A document decodes, and its section of a name holds a payload. -/
def Envelope.Holds (document : ByteArray) (name : String) (payload : ByteArray) : Prop :=
  ∃ envelope, decode document = .ok envelope ∧ envelope.find? name = some ⟨name, payload⟩

theorem Envelope.holds_of_encode {m : Memory} {names : List String} {version : DataVersion}
    {document : ByteArray} (written : encode ⟨version, m.sections names⟩ = .ok document)
    {name : String} (inside : name ∈ names) : Holds document name (m.provider name).payload := by
  obtain ⟨lines, hlines, rfl⟩ := encode_eq_ok written
  refine ⟨_, decode_document hlines, ?_⟩
  show (m.sections names).find? (·.name = name) = some ⟨name, (m.provider name).payload⟩
  clear written hlines
  induction names with
  | nil => cases inside
  | cons other rest ih =>
    by_cases here : other = name
    · subst here
      simp [Memory.sections]
    · have there := ih ((List.mem_cons.1 inside).resolve_left (Ne.symm here))
      rw [Memory.sections] at there ⊢
      rw [List.map_cons, List.find?_cons_of_neg (by simpa using here)]
      exact there

namespace Store

open Holdings

/-! ### Attempts and payloads -/

/-- What is known of a provider after the attempts since it was given data: the last document that
was built for its file holds the payload, and before the first attempt the data is marked as new. -/
structure Current (m : Memory) (path : Path) (name : String) (since : List Serving) : Prop where
  built : ∀ document, Serving.lastDocument? path since = some document →
    Envelope.Holds document name (m.provider name).payload
  unserved : Serving.last? path since = none → (m.provider name).dirty = true

variable {registry : Registry} {since : List Serving} {m m' : Memory} {path : Path} {name : String}
  {file : StoreFile} {files : List StoreFile}

/-- Attempts for other files do not concern a provider. -/
theorem Current.elsewhere {more : List Serving} (current : Current m path name since)
    (elsewhere : ∀ s ∈ more, s.path ≠ path) (same : m'.provider name = m.provider name) :
    Current m' path name (since ++ more) := by
  constructor
  · rw [Serving.lastDocument?_append, Serving.lastDocument?_of_elsewhere elsewhere, same]
    exact current.built
  · rw [Serving.last?_append, Serving.last?_of_elsewhere elsewhere, same]
    exact current.unserved

/-- Has an attempt for the file of a path succeeded, if one has failed? -/
def Recovered (path : Path) (since : List Serving) : Prop :=
  (∃ s ∈ since, s.path = path ∧ s.document = none) → ∃ s ∈ since, s.path = path ∧ s.document ≠ none

/-- Without a document there was no attempt that could have failed. -/
theorem Recovered.last?_eq_none (recovered : Recovered path since)
    (unbuilt : Serving.lastDocument? path since = none) : Serving.last? path since = none := by
  rw [Serving.lastDocument?, List.getLast?_eq_none_iff, List.filterMap_eq_nil_iff] at unbuilt
  have failed {s : Serving} (hs : s ∈ since) (here : s.path = path) : s.document = none :=
    unbuilt s (List.mem_filter.2 ⟨hs, decide_eq_true here⟩)
  have nothing : since.filter (·.path = path) = [] := by
    apply List.filter_eq_nil_iff.2
    intro s hs here
    have here' := of_decide_eq_true here
    obtain ⟨other, hother, there, built⟩ := recovered ⟨s, hs, here', failed hs here'⟩
    exact built (failed hother there)
  rw [Serving.last?, nothing]
  rfl

/-- What an attempt comes to, if the providers keep their payloads as they are. -/
theorem refresh_plain (plain : m.Plain (registry.namesOf file.id)) :
    (refresh registry file m = .ok (file, false) m ∧ attempt registry file m = [] ∧
        m.Clean (registry.namesOf file.id)) ∨
      (∃ document m', refresh registry file m = .ok (file.buffer document, true) m' ∧
        attempt registry file m = [⟨file.path, some document⟩] ∧
        Memory.Served (registry.namesOf file.id) m m' ∧ m'.Clean (registry.namesOf file.id) ∧
        Envelope.encode ⟨.current, m.sections (registry.namesOf file.id)⟩ = .ok document) ∨
      ∃ e m', refresh registry file m = .error e m' ∧
        attempt registry file m = [⟨file.path, none⟩] ∧
        Memory.Served (registry.namesOf file.id) m m' := by
  rcases refresh_cases registry file m with ⟨idle, run⟩ | ⟨-, h⟩
  · left
    refine ⟨run, ?_, Registry.clean_of_not_hasNewData idle⟩
    simp [attempt, run]
  · right
    rcases Registry.serialize_cases file.cipher plain with
      ⟨document, m', built, served, clean, encoded⟩ | ⟨e, m', failed, served⟩
    · left
      rcases h with ⟨document', m₁, built', run⟩ | ⟨e, m₁, failed, -⟩
      · rw [built] at built'
        cases built'
        refine ⟨document, m', run, ?_, served, clean, encoded⟩
        simp [attempt, run, StoreFile.buffer]
      · rw [built] at failed
        cases failed
    · right
      rcases h with ⟨document, m₁, built, -⟩ | ⟨e', m₁, failed', run⟩
      · rw [failed] at built
        cases built
      · rw [failed] at failed'
        cases failed'
        refine ⟨e, m', run, ?_, served⟩
        simp [attempt, run]

/-- Providers of a file that are current stay so over some attempts. -/
def Advances (file : StoreFile) (names : List String) (more : List Serving) (m m' : Memory) :
    Prop :=
  ∀ name ∈ names, ∀ since,
    Current m file.path name since → Current m' file.path name (since ++ more)

theorem advances_of_built {names : List String} {document : ByteArray}
    (encoded : Envelope.encode ⟨.current, m.sections names⟩ = .ok document)
    (served : Memory.Served names m m') :
    Advances file names [⟨file.path, some document⟩] m m' := by
  intro name inside since _
  constructor
  · intro document' built
    have newest : Serving.lastDocument? file.path [⟨file.path, some document⟩] = some document := by
      simp [Serving.lastDocument?]
    rw [Serving.lastDocument?_append, newest] at built
    obtain rfl := Option.some.inj built
    rw [served.payload name]
    exact Envelope.holds_of_encode encoded inside
  · intro none
    rw [Serving.last?_append] at none
    simp [Serving.last?] at none

theorem advances_of_failed {names : List String} (served : Memory.Served names m m') :
    Advances file names [⟨file.path, none⟩] m m' := by
  intro name _ since current
  constructor
  · intro document built
    have nothing : Serving.lastDocument? file.path [⟨file.path, none⟩] = none := by
      simp [Serving.lastDocument?]
    rw [Serving.lastDocument?_append, nothing] at built
    rw [served.payload name]
    exact current.built document built
  · intro none
    rw [Serving.last?_append] at none
    simp [Serving.last?] at none

/-- An attempt keeps the providers of its file current, whatever comes of it. If it does not fail,
none of them has new data. -/
theorem refresh_advances (plain : m.Plain (registry.namesOf file.id)) :
    (∃ result m', refresh registry file m = .ok result m' ∧
        Memory.Served (registry.namesOf file.id) m m' ∧
        Advances file (registry.namesOf file.id) (attempt registry file m) m m' ∧
        m'.Clean (registry.namesOf file.id)) ∨
      ∃ e m', refresh registry file m = .error e m' ∧
        Memory.Served (registry.namesOf file.id) m m' ∧
        Advances file (registry.namesOf file.id) (attempt registry file m) m m' := by
  rcases refresh_plain plain with ⟨run, recorded, clean⟩ |
    ⟨document, m', run, recorded, served, clean, encoded⟩ | ⟨e, m', run, recorded, served⟩
  · left
    refine ⟨_, m, run, .refl _ _, ?_, clean⟩
    intro name _ since current
    rw [recorded, List.append_nil]
    exact current
  · refine .inl ⟨_, m', run, served, ?_, clean⟩
    rw [recorded]
    exact advances_of_built encoded served
  · refine .inr ⟨e, m', run, served, ?_⟩
    rw [recorded]
    exact advances_of_failed served

/-- The providers of several files. -/
def namesOfAll (registry : Registry) (files : List StoreFile) : List String :=
  files.flatMap fun file => registry.namesOf file.id

/-- No two of the files have the same path or the same id. -/
def Distinct (files : List StoreFile) : Prop :=
  files.Pairwise fun file other => file.path ≠ other.path ∧ file.id ≠ other.id

/-- Providers of one file are not concerned by the attempts for files with other ids. -/
theorem not_mem_namesOf (reached : registry.Reached) {other : StoreFile}
    (differ : file.id ≠ other.id) (inside : name ∈ registry.namesOf file.id) :
    name ∉ registry.namesOf other.id :=
  fun there => differ (reached.file_unique inside there)

/-- A refresh attempts the first file, and goes on with the others unless that fails. -/
theorem refreshAll_cases (plain : m.Plain (registry.namesOf file.id)) (rest : List StoreFile) :
    ∃ m₁, Memory.Served (registry.namesOf file.id) m m₁ ∧
      Advances file (registry.namesOf file.id) (attempt registry file m) m m₁ ∧
      (m₁.Clean (registry.namesOf file.id) ∧
          (refreshAll registry (file :: rest) m).2.1 = (refreshAll registry rest m₁).2.1 ∧
          servings registry (file :: rest) m =
            attempt registry file m ++ servings registry rest m₁ ∧
          ((∃ isNew, (refreshAll registry (file :: rest) m).2.2 = .ok isNew) →
            ∃ isNew, (refreshAll registry rest m₁).2.2 = .ok isNew) ∨
        (refreshAll registry (file :: rest) m).2.1 = m₁ ∧
          servings registry (file :: rest) m = attempt registry file m ∧
          ¬ ∃ isNew, (refreshAll registry (file :: rest) m).2.2 = .ok isNew) := by
  rcases refresh_advances plain with
    ⟨⟨first, isNew⟩, m₁, run, served, advances, clean⟩ | ⟨e, m₁, run, served, advances⟩
  · refine ⟨m₁, served, advances, .inl ⟨clean, ?_, ?_, ?_⟩⟩
    · rw [refreshAll_cons, run]
    · rw [servings, run]
    · rw [refreshAll_cons, run]
      rintro ⟨isNew', ok⟩
      cases result : (refreshAll registry rest m₁).2.2 with
      | error e => simp [result, Except.map] at ok
      | ok isNew'' => exact ⟨isNew'', rfl⟩
  · refine ⟨m₁, served, advances, .inr ⟨?_, ?_, ?_⟩⟩
    · rw [refreshAll_cons, run]
    · rw [servings, run, List.append_nil]
    · rw [refreshAll_cons, run]
      rintro ⟨isNew, ok⟩
      cases ok

theorem namesOfAll_cons (registry : Registry) (file : StoreFile) (rest : List StoreFile) :
    namesOfAll registry (file :: rest) = registry.namesOf file.id ++ namesOfAll registry rest :=
  List.flatMap_cons

/-- The providers of the other files keep their payloads as they are also after an attempt. -/
theorem plain_rest {names : List String} {rest : List StoreFile}
    (plain : m.Plain (namesOfAll registry (file :: rest))) (served : Memory.Served names m m') :
    m'.Plain (namesOfAll registry rest) := by
  intro name inside
  rw [served.sealing name]
  exact plain name (namesOfAll_cons .. ▸ List.mem_append_right _ inside)

theorem plain_head {rest : List StoreFile} (plain : m.Plain (namesOfAll registry (file :: rest))) :
    m.Plain (registry.namesOf file.id) :=
  fun name inside => plain name (namesOfAll_cons .. ▸ List.mem_append_left _ inside)

/-- A refresh serves the providers of its files, and no others. -/
theorem served_refreshAll (plain : m.Plain (namesOfAll registry files)) :
    Memory.Served (namesOfAll registry files) m (refreshAll registry files m).2.1 := by
  induction files generalizing m with
  | nil => exact .refl _ _
  | cons file rest ih =>
    obtain ⟨m₁, served, -, ⟨-, moved, -⟩ | ⟨moved, -⟩⟩ := refreshAll_cases (plain_head plain) rest
    · rw [moved, namesOfAll_cons]
      exact (served.mono (List.subset_append_left _ _)).trans
        ((ih (plain_rest plain served)).mono (List.subset_append_right _ _))
    · rw [moved, namesOfAll_cons]
      exact served.mono (List.subset_append_left _ _)

/-- The attempts for other files do not concern the providers of a file. -/
theorem untouched_refreshAll (reached : registry.Reached)
    (plain : m.Plain (namesOfAll registry files))
    (apart : ∀ other ∈ files, file.path ≠ other.path ∧ file.id ≠ other.id)
    (inside : name ∈ registry.namesOf file.id) :
    (refreshAll registry files m).2.1.provider name = m.provider name := by
  apply (served_refreshAll plain).other name
  intro elsewhere
  obtain ⟨other, hother, there⟩ := List.mem_flatMap.1 elsewhere
  exact not_mem_namesOf reached (apart other hother).2 inside there

/-- After a refresh that succeeds, no provider of the files has new data. -/
theorem clean_refreshAll (plain : m.Plain (namesOfAll registry files))
    (done : ∃ isNew, (refreshAll registry files m).2.2 = .ok isNew) :
    (refreshAll registry files m).2.1.Clean (namesOfAll registry files) := by
  induction files generalizing m with
  | nil =>
    intro name inside
    cases inside
  | cons file rest ih =>
    obtain ⟨m₁, served, -, ⟨clean, moved, -, further⟩ | ⟨-, -, failed⟩⟩ :=
      refreshAll_cases (plain_head plain) rest
    · have plain' := plain_rest plain served
      rw [moved, namesOfAll_cons]
      intro name inside
      by_cases again : name ∈ namesOfAll registry rest
      · exact ih plain' (further done) name again
      · rw [(served_refreshAll plain').other name again]
        exact clean name ((List.mem_append.1 inside).resolve_right again)
    · exact absurd done failed

/-- A refresh serves the files one after the other, and the providers of all of them stay current. -/
theorem advances_refreshAll (reached : registry.Reached) (distinct : Distinct files)
    (plain : m.Plain (namesOfAll registry files)) :
    ∀ file ∈ files, Advances file (registry.namesOf file.id) (servings registry files m) m
      (refreshAll registry files m).2.1 := by
  induction files generalizing m with
  | nil =>
    intro file inside
    cases inside
  | cons file rest ih =>
    obtain ⟨apart, distinct'⟩ := List.pairwise_cons.1 distinct
    obtain ⟨m₁, served, here, outcome⟩ := refreshAll_cases (plain_head plain) rest
    -- the attempt for the first file concerns neither providers nor records of the others
    have others : ∀ other ∈ rest,
        Advances other (registry.namesOf other.id) (attempt registry file m) m m₁ := by
      intro other hother name inside since current
      refine current.elsewhere (fun s hs => path_of_mem_attempt hs ▸ (apart other hother).1) ?_
      exact served.other name (not_mem_namesOf reached (apart other hother).2.symm inside)
    rcases outcome with ⟨-, moved, log, -⟩ | ⟨moved, log, -⟩
    · have plain' := plain_rest plain served
      rw [moved, log]
      intro other hother name inside since current
      rw [← List.append_assoc]
      rcases List.mem_cons.1 hother with rfl | hother
      · have elsewhere : ∀ s ∈ servings registry rest m₁, s.path ≠ other.path :=
          servings_elsewhere fun other' hother' => (apart other' hother').1
        exact (here name inside since current).elsewhere elsewhere
          (untouched_refreshAll reached plain' apart inside)
      · have first := others other hother name inside since current
        exact ih distinct' plain' other hother name inside _ first
    · rw [moved, log]
      intro other hother
      rcases List.mem_cons.1 hother with rfl | hother
      · exact here
      · exact others other hother

/-! ### Runs -/

/-- What can happen to a store with its providers. -/
inductive Event where
  /-- A provider is given data. -/
  | set (name : String) (payload : ByteArray)
  /-- The serialize hook of a provider is made to fail, or to work again. -/
  | plan (name : String) (failure : Option ProviderError)
  /-- The device changes what it refuses. -/
  | device (refuses : Path → DiskOperation → Option FileFault)
  | write (force : Bool)
  /-- The oldest alarm goes off. -/
  | fire
  /-- The store is told of an alarm that went off. -/
  | deliver (id : AlarmId)

/-- A store with the record of the attempts, and of those since a provider was last given data. -/
structure Traced where
  store : Store Memory
  log : List Serving
  since? : String → Option (List Serving)

namespace Traced

def start (store : Store Memory) : Traced :=
  ⟨store, [], fun _ => none⟩

def change (t : Traced) (name : String) (f : MemoryProvider → MemoryProvider) : Store Memory :=
  { t.store with providers := t.store.providers.update name f }

def next (t : Traced) : Event → Traced
  | .set name payload =>
    ⟨t.change name (·.set payload), t.log,
      fun other => if other = name then some [] else t.since? other⟩
  | .plan name failure =>
    ⟨t.change name (·.planSerialize failure), t.log, t.since?⟩
  | .device refuses => ⟨{ t.store with disk := { t.store.disk with refuses } }, t.log, t.since?⟩
  | .write force =>
    let made := t.store.holdings.servings
    ⟨after (write force) t.store, t.log ++ made, fun name => (t.since? name).map (· ++ made)⟩
  | .fire => ⟨(t.store.fireOldest?.map (·.2)).getD t.store, t.log, t.since?⟩
  | .deliver id => ⟨after (onAlarm id) t.store, t.log, t.since?⟩

def run (t : Traced) (events : List Event) : Traced :=
  events.foldl next t

end Traced

/-- Failed writes are retained, the files are separate and have ids of their own, and the registered
providers keep their payloads as they are. -/
structure Ready (h : Holdings Memory) : Prop where
  retains : h.policy = .retain
  separate : Separate h.disk.files h.files
  ids : h.files.Pairwise fun file other => file.id ≠ other.id
  reached : h.registry.Reached
  plain : h.providers.Plain (h.registry.entries.map (·.name))

theorem Ready.safe {h : Holdings Memory} (ready : Ready h) : Safe h :=
  ⟨ready.separate, fun _ _ => .inl ready.retains⟩

theorem Ready.distinct {h : Holdings Memory} (ready : Ready h) : Distinct h.files :=
  (ready.separate.and ready.ids).imp fun h => ⟨h.1.1, h.2⟩

theorem Ready.plain_files {h : Holdings Memory} (ready : Ready h) :
    h.providers.Plain (namesOfAll h.registry h.files) := by
  intro name inside
  obtain ⟨file, -, there⟩ := List.mem_flatMap.1 inside
  exact ready.plain name (List.mem_map_of_mem (Registry.mem_namesOf_iff.1 there))

theorem Ready.of_keeps {old new : Holdings Memory} (keeps : Keeps old new)
    (sealing : ∀ name,
      (new.providers.provider name).sealing = (old.providers.provider name).sealing)
    (ready : Ready old) : Ready new := by
  constructor
  · exact keeps.policy.trans ready.retains
  · exact (ready.safe.of_keeps keeps).separate
  · exact keeps.pairwise_ids ready.ids
  · exact keeps.registry ▸ ready.reached
  · intro name h
    rw [keeps.registry] at h
    exact (sealing name).trans (ready.plain name h)

/-- What holds in all runs. -/
structure Tracked (t : Traced) : Prop where
  ready : Ready t.store.holdings
  settled : Settled t.log t.store.holdings
  recent : ∀ name since, t.since? name = some since → since <:+ t.log
  current : ∀ file ∈ t.store.files, ∀ name ∈ t.store.registry.namesOf file.id, ∀ since,
    t.since? name = some since → Current t.store.providers file.path name since

theorem tracked_start {s : Store Memory} (ready : Ready s.holdings) : Tracked (.start s) :=
  ⟨ready, settled_nil _, fun _ _ h => (by cases h), fun _ _ _ _ _ h => (by cases h)⟩

variable {t : Traced}

/-- A change of one provider that is not seen by the store. -/
theorem keeps_change (t : Traced) (name : String) (f : MemoryProvider → MemoryProvider) :
    Keeps t.store.holdings (t.change name f).holdings :=
  ⟨rfl, rfl, rfl, .rfl, rfl⟩

theorem provider_change (t : Traced) (name other : String) (f : MemoryProvider → MemoryProvider) :
    (t.change name f).providers.provider other =
      if other = name then f (t.store.providers.provider name)
      else t.store.providers.provider other :=
  rfl

theorem ready_change {name : String} {f : MemoryProvider → MemoryProvider}
    (sealing : ∀ p, (f p).sealing = p.sealing) (ready : Ready t.store.holdings) :
    Ready (t.change name f).holdings := by
  apply ready.of_keeps (keeps_change t name f)
  intro other
  show ((t.change name f).providers.provider other).sealing =
    (t.store.providers.provider other).sealing
  rw [provider_change]
  split
  · rename_i h
    rw [sealing, h]
  · rfl

/-- New data is marked as new, and concerns no other provider. -/
theorem tracked_set (name : String) (payload : ByteArray) (tracked : Tracked t) :
    Tracked (t.next (.set name payload)) := by
  have provider (other : String) : (t.next (.set name payload)).store.providers.provider other =
      if other = name then (t.store.providers.provider name).set payload
      else t.store.providers.provider other :=
    provider_change t name other (·.set payload)
  refine ⟨ready_change (fun _ => rfl) tracked.ready, tracked.settled, ?_, ?_⟩
  · intro other since given
    simp only [Traced.next] at given
    split at given
    · cases given
      exact List.nil_suffix
    · exact tracked.recent other since given
  · intro file hfile other inside since given
    simp only [Traced.next] at given
    split at given
    · rename_i here
      cases given
      constructor
      · intro document built
        cases built
      · intro _
        rw [provider, if_pos here]
        rfl
    · rename_i differ
      obtain ⟨built, unserved⟩ := tracked.current file hfile other inside since given
      constructor
      · rw [provider, if_neg differ]
        exact built
      · rw [provider, if_neg differ]
        exact unserved

/-- What a hook will do is not seen before it is called. -/
theorem tracked_plan (name : String) (failure : Option ProviderError) (tracked : Tracked t) :
    Tracked (t.next (.plan name failure)) := by
  refine ⟨ready_change (fun _ => rfl) tracked.ready, tracked.settled, tracked.recent, ?_⟩
  intro file hfile other inside since given
  have seen : ((t.next (.plan name failure)).store.providers.provider other).payload =
        (t.store.providers.provider other).payload ∧
      ((t.next (.plan name failure)).store.providers.provider other).dirty =
        (t.store.providers.provider other).dirty := by
    have := provider_change t name other (·.planSerialize failure)
    rw [show (t.next (.plan name failure)).store = t.change name _ from rfl, this]
    split
    · rename_i h
      rw [h]
      exact ⟨rfl, rfl⟩
    · exact ⟨rfl, rfl⟩
  obtain ⟨built, unserved⟩ := tracked.current file hfile other inside since given
  constructor
  · rw [seen.1]
    exact built
  · rw [seen.2]
    exact unserved

theorem tracked_device (refuses : Path → DiskOperation → Option FileFault) (tracked : Tracked t) :
    Tracked (t.next (.device refuses)) :=
  ⟨⟨tracked.ready.retains, tracked.ready.separate, tracked.ready.ids, tracked.ready.reached,
    tracked.ready.plain⟩, tracked.settled, tracked.recent, tracked.current⟩

/-- An operation that keeps files and providers, and their newest contents. -/
theorem Tracked.of_keeps {s : Store Memory} (keeps : Keeps t.store.holdings s.holdings)
    (providers : s.providers = t.store.providers) (settled : Settled t.log s.holdings)
    (tracked : Tracked t) : Tracked ⟨s, t.log, t.since?⟩ := by
  refine ⟨?_, settled, tracked.recent, ?_⟩
  · apply tracked.ready.of_keeps keeps
    intro name
    exact congrArg (fun m : Memory => (m.provider name).sealing) providers
  · intro file hfile name inside since given
    obtain ⟨other, hother, same⟩ := keeps.exists_file hfile
    have registry : s.registry = t.store.registry := keeps.registry
    rw [registry, ← StoreFile.id_eq_of_bare same] at inside
    rw [providers, ← StoreFile.path_eq_of_bare same]
    exact tracked.current other hother name inside since given

theorem tracked_fire (tracked : Tracked t) : Tracked (t.next .fire) := by
  have same : (t.next .fire).store.holdings = t.store.holdings := holdings_fireOldest t.store
  have settled : Settled t.log (t.next .fire).store.holdings := by
    rw [same]
    exact tracked.settled
  exact tracked.of_keeps (same ▸ .refl _) (congrArg Holdings.providers same) settled

theorem tracked_deliver (id : AlarmId) (tracked : Tracked t) : Tracked (t.next (.deliver id)) := by
  refine tracked.of_keeps (keeps_onAlarm id t.store) ?_
    (settled_onAlarm id tracked.ready.safe tracked.settled)
  rcases holdings_onAlarm id t.store with h | h <;> exact congrArg Holdings.providers h

theorem providers_write (force : Bool) (s : Store Memory) :
    (after (write force) s).holdings.providers = s.holdings.refreshed.providers := by
  rcases holdings_write force s with h | h
  · rw [h]
  · rw [h]
    rfl

theorem tracked_write (force : Bool) (tracked : Tracked t) : Tracked (t.next (.write force)) := by
  have ready := tracked.ready
  have keeps := keeps_write force t.store
  have served := served_refreshAll ready.plain_files
  have advances := advances_refreshAll ready.reached ready.distinct ready.plain_files
  have providers := providers_write force t.store
  refine ⟨?_, settled_write force ready.safe tracked.settled, ?_, ?_⟩
  · apply ready.of_keeps keeps
    intro name
    show ((after (write force) t.store).holdings.providers.provider name).sealing = _
    rw [providers]
    exact served.sealing name
  · intro name since given
    obtain ⟨before, given', rfl⟩ := Option.map_eq_some_iff.1 given
    obtain ⟨earlier, all⟩ := tracked.recent name before given'
    refine ⟨earlier, ?_⟩
    rw [← List.append_assoc, all]
    rfl
  · intro file hfile name inside since given
    obtain ⟨before, given', rfl⟩ := Option.map_eq_some_iff.1 given
    obtain ⟨other, hother, same⟩ := keeps.exists_file hfile
    have registry : (t.next (.write force)).store.registry = t.store.registry := keeps.registry
    rw [registry, ← StoreFile.id_eq_of_bare same] at inside
    have there := advances other hother name inside before
      (tracked.current other hother name inside before given')
    show Current (after (write force) t.store).holdings.providers _ _ _
    rw [providers, ← StoreFile.path_eq_of_bare same]
    exact there

theorem tracked_next (event : Event) (tracked : Tracked t) : Tracked (t.next event) := by
  cases event with
  | set name payload => exact tracked_set name payload tracked
  | plan name failure => exact tracked_plan name failure tracked
  | device refuses => exact tracked_device refuses tracked
  | write force => exact tracked_write force tracked
  | fire => exact tracked_fire tracked
  | deliver id => exact tracked_deliver id tracked

theorem tracked_run (events : List Event) (tracked : Tracked t) : Tracked (t.run events) := by
  induction events generalizing t with
  | nil => exact tracked
  | cons event rest ih => exact ih (tracked_next event tracked)

/-- After a forced write that succeeds, no provider has new data. -/
theorem clean_of_write_true {s : Store Memory} (ready : Ready s.holdings)
    (done : Succeeds (write true) s) :
    (after (write true) s).holdings.providers.Clean (namesOfAll s.registry s.files) := by
  rw [providers_write]
  refine clean_refreshAll ready.plain_files ?_
  cases result : s.holdings.refreshResult with
  | ok isNew => exact ⟨isNew, result⟩
  | error e => exact absurd done (write_of_refresh_error true result).1

theorem mem_namesOfAll_of_bare {others : List StoreFile}
    (same : files.map (·.bare) = others.map (·.bare)) (hfile : file ∈ files)
    (inside : name ∈ registry.namesOf file.id) : name ∈ namesOfAll registry others := by
  have moved : file.bare ∈ others.map (·.bare) := same ▸ List.mem_map_of_mem hfile
  obtain ⟨other, hother, same'⟩ := List.mem_map.1 moved
  refine List.mem_flatMap.2 ⟨other, hother, ?_⟩
  rw [StoreFile.id_eq_of_bare same']
  exact inside

/-- After any run, a forced write that succeeds leaves on disk what a provider was last given,
unless attempts for its file have failed since then and none succeeded. -/
theorem payload_committed {s : Store Memory} (ready : Ready s.holdings) (events : List Event)
    (done : Succeeds (write true) ((Traced.start s).run events).store) :
    let t := ((Traced.start s).run events).next (.write true)
    ∀ file ∈ t.store.files, ∀ name ∈ t.store.registry.namesOf file.id, ∀ since,
      t.since? name = some since → Recovered file.path since →
      ∃ document, t.store.disk.files.read file.path = .ok document ∧
        Envelope.Holds document name (t.store.providers.provider name).payload := by
  intro t file hfile name inside since given recovered
  have before : Tracked ((Traced.start s).run events) := tracked_run events (tracked_start ready)
  have tracked : Tracked t := tracked_write true before
  have current := tracked.current file hfile name inside since given
  have keeps := keeps_write true ((Traced.start s).run events).store
  obtain ⟨document, built⟩ : ∃ document, Serving.lastDocument? file.path since = some document := by
    cases newest : Serving.lastDocument? file.path since with
    | some document => exact ⟨document, rfl⟩
    | none =>
      have dirty := current.unserved (recovered.last?_eq_none newest)
      have registry : t.store.registry = ((Traced.start s).run events).store.registry :=
        keeps.registry
      rw [registry] at inside
      have clean := clean_of_write_true before.ready done name
        (mem_namesOfAll_of_bare keeps.files hfile inside)
      have clean' : (t.store.providers.provider name).dirty = false := clean
      rw [dirty] at clean'
      cases clean'
  refine ⟨document, ?_, current.built document built⟩
  -- the document is the newest one of the whole run, and it is not in the buffer any more
  obtain ⟨earlier, all⟩ := tracked.recent name since given
  have newest : Serving.lastDocument? file.path t.log = some document := by
    rw [← all, Serving.lastDocument?_append, built]
    rfl
  have settled := tracked.settled file hfile document newest
  have empty : file.pending = none := pending_of_write_true done file hfile
  rw [StoreFile.newest?, empty] at settled
  exact FileSystem.read_of_content? settled

/-- A store with two providers in its shared file, which is still absent. -/
def siblings : Store Memory :=
  let s := Store.new { Config.default with policy := .retain }
    (.new ⟨"s.xml"⟩ .sharedGeneral none) Memory.empty (.ofFiles .new) (.new false)
  after (register "B" (some .sharedGeneral)) (after (register "A" (some .sharedGeneral)) s)

theorem reached_register {s : Store Memory} (reached : s.registry.Reached) (name : String)
    (file : Option FileId) : (after (register name file) s).registry.Reached := by
  unfold after register
  cases accepted : s.registry.register name file with
  | ok registry => exact .register reached accepted
  | error e => exact reached

theorem ready_siblings : Ready siblings.holdings := by
  refine ⟨rfl, List.pairwise_singleton _ _, List.pairwise_singleton _ _, ?_, fun _ _ => rfl⟩
  exact reached_register (reached_register (.new _ _) _ _) _ _

/-- Provider A is given data, and a write fails at B after A was served. What happens then is up to
B. -/
def afterFailure (more : List Event) : Traced :=
  (Traced.start siblings).run
    ([.set "A" (Utf8.encode ['1']), .plan "B" (some (.other "refused")), .write true,
      .plan "B" none] ++ more)

/-- Where the section of a provider goes, if it goes to the file of a path. -/
theorem exists_file_of {t : Traced} {path : Path} {name : String}
    (served : t.store.files.any (fun file =>
      decide (file.path = path) && decide (name ∈ t.store.registry.namesOf file.id)) = true) :
    ∃ file ∈ t.store.files, file.path = path ∧ name ∈ t.store.registry.namesOf file.id := by
  obtain ⟨file, hfile, h⟩ := List.any_eq_true.1 served
  rw [Bool.and_eq_true, decide_eq_true_eq, decide_eq_true_eq] at h
  exact ⟨file, hfile, h⟩

/-- If B is given data too, the write covers both, and what the failed attempt had taken from A is
on disk. -/
theorem payload_committed_afterFailure :
    let t := (afterFailure [.set "B" (Utf8.encode ['2'])]).next (.write true)
    ∃ file ∈ t.store.files, ∃ document, t.store.disk.files.read file.path = .ok document ∧
      Envelope.Holds document "A" (t.store.providers.provider "A").payload := by
  intro t
  have done : Succeeds (write true) (afterFailure [.set "B" (Utf8.encode ['2'])]).store :=
    by decide +kernel
  obtain ⟨file, hfile, path, inside⟩ : ∃ file ∈ t.store.files, file.path = ⟨"s.xml"⟩ ∧
      "A" ∈ t.store.registry.namesOf file.id := exists_file_of (by decide +kernel)
  have recovered : (t.since? "A").any (·.any fun s =>
      decide (s.path = ⟨"s.xml"⟩) && s.document.isSome) = true := by
    decide +kernel
  obtain ⟨since, given, h⟩ := (Option.any_eq_true _ _).1 recovered
  obtain ⟨s, hs, h⟩ := List.any_eq_true.1 h
  rw [Bool.and_eq_true, decide_eq_true_eq] at h
  obtain ⟨path', built⟩ := h
  have recovered' : Recovered file.path since :=
    fun _ => ⟨s, hs, path'.trans path.symm, Option.isSome_iff_ne_none.1 built⟩
  exact ⟨file, hfile,
    payload_committed ready_siblings _ done file hfile "A" inside since given recovered'⟩

/-- If B works again without new data of its own, nothing is left to write. The forced write
succeeds, and what A was given is nowhere on disk. -/
theorem sibling_failure_loses_update :
    Ready siblings.holdings ∧ Succeeds (write true) (afterFailure []).store ∧
      let t := (afterFailure []).next (.write true)
      ∃ file ∈ t.store.files, "A" ∈ t.store.registry.namesOf file.id ∧
        (t.since? "A").isSome = true ∧
        ¬ ∃ document, t.store.disk.files.read file.path = .ok document ∧
          Envelope.Holds document "A" (t.store.providers.provider "A").payload := by
  refine ⟨ready_siblings, by decide +kernel, ?_⟩
  intro t
  obtain ⟨file, hfile, path, inside⟩ : ∃ file ∈ t.store.files, file.path = ⟨"s.xml"⟩ ∧
      "A" ∈ t.store.registry.namesOf file.id := exists_file_of (by decide +kernel)
  have absent : (t.store.disk.files.read ⟨"s.xml"⟩).toOption = none := by
    decide +kernel
  refine ⟨file, hfile, inside, by decide +kernel, ?_⟩
  rintro ⟨document, read, -⟩
  rw [path] at read
  rw [read] at absent
  cases absent

/-- Two files whose paths are spelled differently, but lead to the same place. -/
def aliases : Store Memory :=
  let s := Store.new { Config.default with policy := .retain }
    (.new ⟨"s.xml"⟩ .sharedGeneral none) Memory.empty (.ofFiles .new) (.new false)
  let s := s.setUserFiles [.new ⟨"./s.xml"⟩ .userGeneral none]
  after (register "U" (some .userGeneral)) (after (register "A" (some .sharedGeneral)) s)

/-- Files must lead to different places: one that overwrites another loses its updates. -/
theorem aliases_lose_update :
    (aliases.files.map (·.path)).Nodup ∧ ¬ Separate aliases.disk.files aliases.files ∧
      let t := (Traced.start aliases).run
        [.set "A" (Utf8.encode ['1']), .set "U" (Utf8.encode ['2']), .write true]
      ∃ file ∈ t.store.files, file.path = ⟨"s.xml"⟩ ∧ "A" ∈ t.store.registry.namesOf file.id ∧
        ∀ document, t.store.disk.files.read ⟨"s.xml"⟩ = .ok document →
          ¬ Envelope.Holds document "A" (t.store.providers.provider "A").payload := by
  refine ⟨by decide +kernel, ?_, ?_⟩
  · intro separate
    have apart := List.pairwise_pair.1 separate
    have shared : FileSystem.new.target? ⟨"s.xml"⟩ = some ["s.xml"] := by decide +kernel
    have user : FileSystem.new.target? ⟨"./s.xml"⟩ = some ["s.xml"] := by decide +kernel
    exact apart.2 _ shared user
  · intro t
    obtain ⟨file, hfile, path, inside⟩ : ∃ file ∈ t.store.files, file.path = ⟨"s.xml"⟩ ∧
        "A" ∈ t.store.registry.namesOf file.id := exists_file_of (by decide +kernel)
    refine ⟨file, hfile, path, inside, ?_⟩
    rintro document read ⟨envelope, decoded, found⟩
    have absent : ((t.store.disk.files.read ⟨"s.xml"⟩).toOption.bind fun document =>
        (Envelope.decode document).toOption.bind (·.find? "A")) = none := by
      decide +kernel
    rw [read] at absent
    simp only [Except.toOption, Option.bind_some, decoded, found] at absent
    cases absent

end Store

end SectionStore
