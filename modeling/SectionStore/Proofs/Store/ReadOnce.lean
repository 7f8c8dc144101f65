import SectionStore.Proofs.Provider.Hooks
import SectionStore.Proofs.Store.Holdings
import SectionStore.Proofs.Store.Reading
import SectionStore.Proofs.Store.Rewriting

/-!
# A reading delivers once

The calls that a reading makes of one provider, and what becomes of it. After one reset, a provider
of a file that was read is handed what the file has for it, once (`TookIn`). Where a file cannot be
read, is rejected, or is refused by one of its providers, the providers of this file and of those
behind it hold no data in the end. Main statement: `read_once`, for providers in memory whose hooks
do what they like.
-/

namespace SectionStore

/-- The call that hands a provider what was found in its file. -/
def StoreFile.handing (file : StoreFile) (found : Option Envelope) (name : String) : HookCall :=
  .deserialize name (found.bind (·.payloadOf? name)) (found.map (·.version)) file.cipher none

namespace Store

open Registry (ending)
open Hooked

variable {registry : Registry} {disk : Disk} {file : StoreFile} {files : List StoreFile}
  {result : Except StoreError Unit} {calls : List HookCall} {e : StoreError} {name : String}

/-! ### Calls of one provider in a reading -/

/-- Where no provider is called twice, the calls of one are one call. -/
theorem own_eq_singleton {call : HookCall} (distinct : (calls.map (·.name)).Nodup)
    (here : call ∈ calls) : own call.name calls = [call] := by
  induction calls with
  | nil => cases here
  | cons first rest ih =>
    obtain ⟨alone, distinct⟩ := List.nodup_cons.1 distinct
    rcases List.mem_cons.1 here with rfl | here
    · have others : own call.name rest = [] :=
        own_eq_nil fun other there same => alone (List.mem_map.2 ⟨other, there, same⟩)
      rw [own_cons_of_eq rfl, others]
    · have differ : first.name ≠ call.name :=
        fun same => alone (List.mem_map.2 ⟨call, here, same.symm⟩)
      rw [own_cons_of_ne differ, ih distinct here]

theorem map_name_resets (names : List String) :
    (names.map HookCall.reset).map (·.name) = names := by
  rw [List.map_map]
  exact List.map_id names

theorem own_resets {names : List String} (distinct : names.Nodup) (here : name ∈ names) :
    own name (names.map .reset) = [.reset name] :=
  @own_eq_singleton _ (.reset name) (by rwa [map_name_resets]) (List.mem_map_of_mem here)

/-- The calls of a file are calls of its providers. -/
theorem FileCalls.name_mem (reached : registry.Reached)
    (law : FileCalls registry disk file result calls) :
    ∀ call ∈ calls, call.name ∈ registry.namesOf file.id := by
  have owners {version : Option DataVersion} {failure : Option ProviderError}
      {content : Option ByteArray} {plan : List PlannedCall}
      (asks : registry.Asks file.id content version plan) {call : PlannedCall}
      (planned : call ∈ plan) :
      (call.made version file.cipher failure).name ∈ registry.namesOf file.id :=
    (asks.perm reached).mem_iff.1 (List.mem_map_of_mem planned)
  intro call here
  cases law with
  | delivered read asks =>
    obtain ⟨planned, there, rfl⟩ := List.mem_map.1 here
    exact owners asks there
  | unread => cases here
  | rejected => cases here
  | refused e read asks =>
    rcases List.mem_append.1 here with here | here
    · obtain ⟨planned, there, rfl⟩ := List.mem_map.1 here
      exact owners asks (List.mem_append_left _ there)
    · rcases List.mem_cons.1 here with rfl | here
      · exact owners asks (List.mem_append_right _ List.mem_cons_self)
      · obtain ⟨name, owner, rfl⟩ := List.mem_map.1 here
        exact owner

theorem ReadCalls.name_mem (reached : registry.Reached)
    (law : ReadCalls registry disk files result calls) :
    ∀ call ∈ calls, ∃ file ∈ files, call.name ∈ registry.namesOf file.id := by
  induction law with
  | done => exact List.forall_mem_nil _
  | another first _ ih =>
    intro call here
    rcases List.mem_append.1 here with here | here
    · exact ⟨_, List.mem_cons_self, first.name_mem reached call here⟩
    · obtain ⟨file, there, owner⟩ := ih call here
      exact ⟨file, List.mem_cons_of_mem _ there, owner⟩
  | stops fails => exact fun call here => ⟨_, List.mem_cons_self, fails.name_mem reached call here⟩

/-- A file that is read calls each of its providers once, with what it has for the provider. -/
theorem FileCalls.own_of_ok (reached : registry.Reached)
    (law : FileCalls registry disk file (.ok ()) calls) :
    ∃ found, file.Finds disk found ∧
      ∀ name ∈ registry.namesOf file.id, own name calls = [file.handing found name] := by
  cases law with
  | delivered read asks =>
    have owners := asks.perm reached
    obtain ⟨found, decoded, rfl, planned⟩ := asks.mem_plan
    refine ⟨found, ⟨_, read, decoded⟩, fun name here => ?_⟩
    let made := PlannedCall.made (found.map (·.version)) file.cipher none
    refine own_eq_singleton ?_ (List.mem_map_of_mem (f := made) (planned name here))
    rw [List.map_map]
    exact owners.nodup_iff.2 (reached.nodup_namesOf file.id)

/-- Where a file fails, a provider of it is not called, or is reset after all other calls. -/
theorem FileCalls.own_of_error (reached : registry.Reached)
    (law : FileCalls registry disk file (.error e) calls) (here : name ∈ registry.namesOf file.id) :
    own name calls = [] ∨ ∃ before, own name calls = before ++ [.reset name] := by
  cases law with
  | unread => exact .inl rfl
  | rejected => exact .inl rfl
  | @refused content version before after failing fault read asks =>
    right
    have last := own_resets (reached.nodup_namesOf file.id) here
    refine ⟨own name (before.map (·.made version file.cipher none) ++
      [failing.made version file.cipher (some fault)]), ?_⟩
    rw [← last, ← own_append, List.append_assoc]
    rfl

/-- A reading that fails has read the earlier files. -/
theorem ReadCalls.split_of_error (law : ReadCalls registry disk files (.error e) calls) :
    ∃ before file after earlier last, files = before ++ file :: after ∧
      ReadCalls registry disk before (.ok ()) earlier ∧
      FileCalls registry disk file (.error e) last ∧ calls = earlier ++ last := by
  generalize ended : Except.error e = result at law
  induction law with
  | done => cases ended
  | @another file rest result calls more first _ ih =>
    obtain ⟨before, failing, after, earlier, last, rfl, others, fails, rfl⟩ := ih ended
    exact ⟨file :: before, failing, after, calls ++ earlier, last, rfl, .another first others,
      fails, (List.append_assoc ..).symm⟩
  | @stops file rest e' calls fails =>
    cases ended
    exact ⟨[], file, rest, [], calls, rfl, .done, fails, rfl⟩

/-- Providers that belong to none of the files are not called. -/
theorem ReadCalls.own_of_elsewhere (reached : registry.Reached)
    (law : ReadCalls registry disk files result calls)
    (elsewhere : ∀ file ∈ files, name ∉ registry.namesOf file.id) : own name calls = [] := by
  refine own_eq_nil fun call here same => ?_
  obtain ⟨file, there, owner⟩ := law.name_mem reached call here
  exact elsewhere file there (same ▸ owner)

/-- Each file that is read calls its providers once. -/
theorem ReadCalls.own_of_ok (reached : registry.Reached)
    (ids : files.Pairwise fun file other => file.id ≠ other.id)
    (law : ReadCalls registry disk files (.ok ()) calls) :
    ∀ file ∈ files, ∃ found, file.Finds disk found ∧
      ∀ name ∈ registry.namesOf file.id, own name calls = [file.handing found name] := by
  generalize ended : Except.ok () = result at law
  induction law with
  | done => exact List.forall_mem_nil _
  | @another file rest result calls more first others ih =>
    obtain ⟨apart, ids⟩ := List.pairwise_cons.1 ids
    refine List.forall_mem_cons.2 ⟨?_, fun other there => ?_⟩
    · obtain ⟨found, finds, once⟩ := first.own_of_ok reached
      refine ⟨found, finds, fun name here => ?_⟩
      have away : own name more = [] := others.own_of_elsewhere reached fun other there again =>
        apart other there (reached.file_unique here again)
      rw [own_append, once name here, away, List.append_nil]
    · obtain ⟨found, finds, once⟩ := ih ids ended other there
      refine ⟨found, finds, fun name here => ?_⟩
      have away : own name calls = [] := own_eq_nil fun call made same =>
        apart other there (reached.file_unique (same ▸ first.name_mem reached call made) here)
      rw [own_append, once name here, away, List.nil_append]
  | stops => cases ended

/-- What a failed reading leaves behind, by the calls of each provider: those of the earlier files
were handed their data, and the others were reset last. -/
theorem ReadCalls.own_of_error (reached : registry.Reached)
    (ids : files.Pairwise fun file other => file.id ≠ other.id)
    (law : ReadCalls registry disk files (.error e) calls) :
    ∃ before file after, files = before ++ file :: after ∧
      (∃ last, FileCalls registry disk file (.error e) last) ∧
      (∀ earlier ∈ before, ∃ found, earlier.Finds disk found ∧
        ∀ name ∈ registry.namesOf earlier.id, own name calls = [earlier.handing found name]) ∧
      (∀ name ∈ registry.namesOf file.id,
        own name calls = [] ∨ ∃ made, own name calls = made ++ [.reset name]) ∧
      ∀ later ∈ after, ∀ name ∈ registry.namesOf later.id, own name calls = [] := by
  obtain ⟨before, file, after, first, last, rfl, read, fails, rfl⟩ := law.split_of_error
  obtain ⟨idsBefore, idsBehind, across⟩ := List.pairwise_append.1 ids
  obtain ⟨apart, -⟩ := List.pairwise_cons.1 idsBehind
  have noneOfLast {other : StoreFile} (differ : other.id ≠ file.id) {name : String}
      (here : name ∈ registry.namesOf other.id) : own name last = [] :=
    own_eq_nil fun call made same =>
      differ (reached.file_unique here (same ▸ fails.name_mem reached call made))
  have noneOfFirst {other : StoreFile} (behind : other ∈ file :: after) {name : String}
      (here : name ∈ registry.namesOf other.id) : own name first = [] :=
    read.own_of_elsewhere reached fun earlier there again =>
      across earlier there other behind (reached.file_unique again here)
  refine ⟨before, file, after, rfl, ⟨last, fails⟩, fun earlier there => ?_, fun name here => ?_,
    fun later there name here => ?_⟩
  · obtain ⟨found, finds, once⟩ := read.own_of_ok reached idsBefore earlier there
    refine ⟨found, finds, fun name here => ?_⟩
    rw [own_append, once name here,
      noneOfLast (across earlier there file List.mem_cons_self) here, List.append_nil]
  · rw [own_append, noneOfFirst List.mem_cons_self here, List.nil_append]
    exact fails.own_of_error reached here
  · rw [own_append, noneOfFirst (List.mem_cons_of_mem _ there) here,
      noneOfLast (apart later there).symm here, List.append_nil]

/-- A reading begins with one reset of each provider of its files. -/
theorem own_resetCalls (reached : registry.Reached)
    (ids : files.Pairwise fun file other => file.id ≠ other.id) (there : file ∈ files)
    (here : name ∈ registry.namesOf file.id) :
    own name (resetCalls registry files) = [.reset name] := by
  have distinct : (files.flatMap fun file => registry.namesOf file.id).Nodup := by
    refine List.nodup_flatMap.2 ⟨fun file _ => reached.nodup_namesOf file.id, ids.imp ?_⟩
    intro file other apart name owner again
    exact apart (reached.file_unique owner again)
  rw [resetCalls, ← List.map_flatMap]
  exact own_resets distinct (List.mem_flatMap.2 ⟨file, there, here⟩)

theorem own_resetCalls_append (reached : registry.Reached)
    (ids : files.Pairwise fun file other => file.id ≠ other.id) (there : file ∈ files)
    (here : name ∈ registry.namesOf file.id) (calls : List HookCall) :
    own name (resetCalls registry files ++ calls) = .reset name :: own name calls := by
  rw [own_append, own_resetCalls reached ids there here, List.singleton_append]

theorem own_resetCalls_of_elsewhere (elsewhere : ∀ file ∈ files, name ∉ registry.namesOf file.id) :
    own name (resetCalls registry files) = [] := by
  refine own_eq_nil fun call made same => ?_
  obtain ⟨file, there, made⟩ := List.mem_flatMap.1 made
  obtain ⟨owner, here, rfl⟩ := List.mem_map.1 made
  exact elsewhere file there (same ▸ here)

/-! ### The whole -/

variable {σ : Type} {s : Store (Hooked σ)}

/-- The provider was reset, and then handed what the file has for it, and nothing else was done to
it: it is as its hook left it. -/
def TookIn (s : Store (Hooked σ)) (file : StoreFile) (calls : List HookCall) (name : String)
    (p : HookedProvider σ) : Prop :=
  ∃ found, file.Finds s.disk found ∧
    own name calls = [.reset name, file.handing found name] ∧
    s.providers.hook name (found.bind (·.payloadOf? name)) (found.map (·.version)) file.cipher
      (s.providers.provider name).reset = .ok () p

theorem tookIn_of_own {found : Option Envelope} {p : HookedProvider σ}
    (finds : file.Finds s.disk found)
    (once : own name calls = [.reset name, file.handing found name])
    (run : Undergoes (s.providers.hook name) (own name calls) (s.providers.provider name) p) :
    TookIn s file calls name p := by
  refine ⟨found, finds, once, ?_⟩
  rw [once] at run
  obtain ⟨p₁, first, second⟩ := run
  cases first
  cases undergoes_singleton_iff.1 second with
  | taken run => exact run

/-- A provider that is reset, and then not called or reset again in the end, holds no data. -/
theorem isBlank_of_own {made record : List HookCall} {hook : DeserializeHook σ}
    {p p' : HookedProvider σ} (all : own name record = .reset name :: made)
    (last : made = [] ∨ ∃ before, made = before ++ [.reset name])
    (run : Undergoes hook (own name record) p p') : p'.memory.IsBlank := by
  rw [all] at run
  rcases last with rfl | ⟨before, rfl⟩
  · exact isBlank_of_reset_last [] run
  · exact isBlank_of_reset_last (.reset name :: before) run

/-- The record of a reading leads each provider from its state before to the one behind, and nothing
else of the data changes. -/
theorem exists_replay (s : Store (Hooked σ)) :
    ∃ result t calls, ReadCalls s.registry s.disk s.files result calls ∧
      read s = ending result t ∧
      read (s.recorded []) =
        ending result (t.recorded (resetCalls s.registry s.files ++ calls)) ∧
      t.files = s.files ∧ t.disk = s.disk ∧
      ∀ name, Undergoes (s.providers.hook name)
        (own name (resetCalls s.registry s.files ++ calls)) (s.providers.provider name)
        (t.providers.provider name) := by
  obtain ⟨result, w, calls, law, run, noted⟩ := read_calls s
  have replays : Replays s.providers ⟨w, resetCalls s.registry s.files ++ calls⟩ := by
    have kept := (keeps_replays s.providers).read (s.recorded []) (replays_start s.providers)
    rw [noted] at kept
    cases result <;> exact kept
  refine ⟨result, s.afterReading result w, calls, law, run, noted, s.files_afterReading result w,
    s.disk_afterReading result w, fun name => ?_⟩
  rw [s.providers_afterReading result w]
  exact replays.undergoes name

/-- Reading resets every provider of the files before it hands anything to anybody. If it succeeds,
each of them has taken in what its file has for it, once. If it fails, it has come to a file that
fails: this is so of the providers of earlier files, and those of this file and of later ones hold
no data. Other providers are left alone, as are the files, with their buffers, and the disk. -/
theorem read_once (reached : s.registry.Reached)
    (ids : s.files.Pairwise fun file other => file.id ≠ other.id) :
    ∃ result t record, read s = ending result t ∧
      read (s.recorded []) = ending result (t.recorded record) ∧
      resetCalls s.registry s.files <+: record ∧ t.files = s.files ∧ t.disk = s.disk ∧
      (∀ name, (∀ file ∈ s.files, name ∉ s.registry.namesOf file.id) →
        own name record = [] ∧ t.providers.provider name = s.providers.provider name) ∧
      (result = .ok () → ∀ file ∈ s.files, ∀ name ∈ s.registry.namesOf file.id,
        TookIn s file record name (t.providers.provider name)) ∧
      ∀ e, result = .error e → ∃ before file after, s.files = before ++ file :: after ∧
        (∃ last, FileCalls s.registry s.disk file (.error e) last) ∧
        (∀ earlier ∈ before, ∀ name ∈ s.registry.namesOf earlier.id,
          TookIn s earlier record name (t.providers.provider name)) ∧
        (∀ later ∈ file :: after, ∀ name ∈ s.registry.namesOf later.id,
          (t.providers.provider name).memory.IsBlank) ∧
        ∀ later ∈ after, ∀ name ∈ s.registry.namesOf later.id, own name record = [.reset name] := by
  obtain ⟨result, t, calls, law, run, noted, files, disk, undergoes⟩ := exists_replay s
  have resetFirst {file : StoreFile} (there : file ∈ s.files) {name : String}
      (here : name ∈ s.registry.namesOf file.id) :=
    own_resetCalls_append reached ids there here calls
  refine ⟨result, t, _, run, noted, List.prefix_append _ _, files, disk, ?_, ?_, ?_⟩
  · intro name outside
    have untouched : own name (resetCalls s.registry s.files ++ calls) = [] := by
      rw [own_append, own_resetCalls_of_elsewhere outside,
        law.own_of_elsewhere reached outside, List.append_nil]
    have same := undergoes name
    rw [untouched] at same
    exact ⟨untouched, same⟩
  · rintro rfl file there name here
    obtain ⟨found, finds, once⟩ := law.own_of_ok reached ids file there
    exact tookIn_of_own finds (by rw [resetFirst there here, once name here]) (undergoes name)
  · rintro e rfl
    obtain ⟨before, file, after, split, fails, ofEarlier, ofFile, ofLater⟩ :=
      law.own_of_error reached ids
    have earlierFiles {earlier : StoreFile} (there : earlier ∈ before) : earlier ∈ s.files :=
      split ▸ List.mem_append_left _ there
    have laterFiles {later : StoreFile} (there : later ∈ file :: after) : later ∈ s.files :=
      split ▸ List.mem_append_right _ there
    refine ⟨before, file, after, split, fails, fun earlier there name here => ?_,
      List.forall_mem_cons.2 ⟨fun name here => ?_, fun later there name here => ?_⟩,
      fun later there name here => ?_⟩
    · obtain ⟨found, finds, once⟩ := ofEarlier earlier there
      exact tookIn_of_own finds (by rw [resetFirst (earlierFiles there) here, once name here])
        (undergoes name)
    · have all := resetFirst (laterFiles List.mem_cons_self) here
      exact isBlank_of_own all (ofFile name here) (undergoes name)
    · have all := resetFirst (laterFiles (List.mem_cons_of_mem _ there)) here
      exact isBlank_of_own all (.inl (ofLater later there name here)) (undergoes name)
    · rw [resetFirst (laterFiles (List.mem_cons_of_mem _ there)) here,
        ofLater later there name here]

/-! ### A provider that takes its data and fails -/

/-- Takes in what it is handed. -/
def takes : DeserializeHook Unit := fun content version _ p =>
  .ok () { p with memory := p.memory.afterDelivery content version }

/-- Makes up data of its own, and fails. -/
def takesAndFails : DeserializeHook Unit := fun _ _ _ p =>
  .error (.other "refused") { p with memory := p.memory.set (Utf8.encode ['x']) }

/-- A store with three files and a provider that fails in the second of them. All providers have
been given data before. -/
def failingInside : Store (Hooked Unit) :=
  let hook name := if name = "V" then takesAndFails else takes
  let providers := ⟨hook, fun _ => ⟨(MemoryProvider.new false false).set (Utf8.encode ['o']), ()⟩⟩
  let s := Store.new .default documentFile providers (documentDisk (documentOf ['1'])) (.new false)
  let s := s.setUserFiles [.new ⟨"g.xml"⟩ .userGeneral none,
    .new ⟨"n.xml"⟩ .userNetworkSuggestions none]
  let s := after (register "A" (some .sharedGeneral)) s
  let s := after (register "U" (some .userGeneral)) s
  let s := after (register "V" (some .userGeneral)) s
  after (register "S" (some .userNetworkSuggestions)) s

theorem reached_failingInside : failingInside.registry.Reached := by
  have first := Registry.Reached.new .primary .default
  have second := @Registry.Reached.register _ _ "A" (some .sharedGeneral) first rfl
  have third := @Registry.Reached.register _ _ "U" (some .userGeneral) second rfl
  have fourth := @Registry.Reached.register _ _ "V" (some .userGeneral) third rfl
  exact @Registry.Reached.register _ _ "S" (some .userNetworkSuggestions) fourth rfl

theorem exists_payload_failingInside : ∃ e t, read failingInside = .error e t ∧
    (t.providers.provider "A").memory.payload = Utf8.encode ['1'] := by
  obtain ⟨e, t, run, held⟩ := @exists_error_of_match _ _ _ read failingInside
    (fun _ t => decide ((t.providers.provider "A").memory.payload = Utf8.encode ['1']))
    (by decide +kernel)
  exact ⟨e, t, run, of_decide_eq_true held⟩

/-- The provider of the first file keeps what it was given. Those of the second one, and of the
third, hold nothing, although data was given to all of them. -/
theorem read_once_failingInside :
    ∃ e t record, read failingInside = .error e t ∧
      read (failingInside.recorded []) = .error e (t.recorded record) ∧
      TookIn failingInside documentFile record "A" (t.providers.provider "A") ∧
      (∀ name ∈ ["U", "V", "S"], (t.providers.provider name).memory.IsBlank) ∧
      own "S" record = [.reset "S"] := by
  have files : failingInside.files = [documentFile, .new ⟨"g.xml"⟩ .userGeneral none,
      .new ⟨"n.xml"⟩ .userNetworkSuggestions none] := rfl
  have ids : failingInside.files.Pairwise fun file other => file.id ≠ other.id := by
    rw [files]
    decide
  obtain ⟨e, t, run, payload⟩ := exists_payload_failingInside
  obtain ⟨result, t', record, run', recorded, -, -, -, -, -, failed⟩ :=
    read_once reached_failingInside ids
  have same : result = .error e ∧ t' = t := by
    rw [run] at run'
    cases result <;> cases run'
    exact ⟨rfl, rfl⟩
  obtain ⟨rfl, rfl⟩ := same
  obtain ⟨before, file, after, split, -, earlier, later, untouched⟩ := failed e rfl
  rw [files] at split
  -- the first file did not fail, because its provider has data, and the second did, because of V
  rcases before with _ | ⟨first, _ | ⟨second, before⟩⟩
  · cases split
    have blank := (later documentFile List.mem_cons_self "A" (by decide +kernel)).payload
    rw [payload] at blank
    exact absurd blank (by decide +kernel)
  · cases split
    have last := List.mem_cons_of_mem (StoreFile.new ⟨"g.xml"⟩ .userGeneral none)
      (List.mem_singleton_self (StoreFile.new ⟨"n.xml"⟩ .userNetworkSuggestions none))
    refine ⟨e, t', record, run, recorded, earlier _ List.mem_cons_self "A" (by decide +kernel), ?_,
      untouched _ (List.mem_singleton_self _) "S" (by decide +kernel)⟩
    refine List.forall_mem_cons.2 ⟨later _ List.mem_cons_self "U" (by decide +kernel), ?_⟩
    refine List.forall_mem_cons.2 ⟨later _ List.mem_cons_self "V" (by decide +kernel), ?_⟩
    exact List.forall_mem_singleton.2 (later _ last "S" (by decide +kernel))
  · obtain ⟨-, tail⟩ := List.cons.inj split
    obtain ⟨rfl, -⟩ := List.cons.inj tail
    obtain ⟨found, -, -, took⟩ :=
      earlier _ (List.mem_cons_of_mem _ List.mem_cons_self) "V" (by decide +kernel)
    cases took

end Store

end SectionStore
