import SectionStore.Proofs.Store.Reading
import SectionStore.Proofs.Store.UserSwitch

/-!
# What a switch leaves in memory

A switch resets the providers of the outgoing files, and those of each new file just before it reads
it. So the providers of all files that it came to hold nothing, or what a new file has for them
(`Isolated`). It ends at the first file that cannot be read (`attempted`), and the providers of the
new files behind that one keep what they had before, as all others do
(`providers_after_switch`). A later write puts that into the new user's file
(`switch_keeps_unread_providers`).
-/

namespace SectionStore.Store

open Memory MemoryProvider

/-- The files that a switch comes to: all of them, or those up to the first that cannot be read. -/
def attempted (registry : Registry) (disk : Disk) : List StoreFile → Memory → List StoreFile
  | [], _ => []
  | file :: rest, m =>
    file :: match readFile registry disk file (registry.reset file.id m) with
      | .ok () m' => attempted registry disk rest m'
      | .error _ _ => []

/-- The provider has no new data, and holds nothing, or what one of the files has for it. -/
structure Isolated (registry : Registry) (disk : Disk) (files : List StoreFile) (name : String)
    (p : MemoryProvider) : Prop where
  dirty : p.dirty = false
  payload : p.payload = ByteArray.empty ∨ ∃ file ∈ files, name ∈ registry.namesOf file.id ∧
    ∃ envelope data, file.Finds disk (some envelope) ∧ envelope.payloadOf? name = some data ∧
      p.openPayload file.cipher data = .ok p.payload

variable {registry : Registry} {disk : Disk} {file : StoreFile} {files more : List StoreFile}
  {m m' : Memory} {name : String}

theorem Isolated.of_blank {p : MemoryProvider} (blank : p.IsBlank) :
    Isolated registry disk files name p :=
  ⟨blank.dirty, .inl blank.payload⟩

theorem Isolated.mono {p : MemoryProvider} (isolated : Isolated registry disk files name p)
    (subset : files ⊆ more) : Isolated registry disk more name p := by
  refine ⟨isolated.dirty, isolated.payload.imp id ?_⟩
  rintro ⟨file, here, rest⟩
  exact ⟨file, subset here, rest⟩

/-- A provider that had no data and was loaded from a file is isolated. -/
theorem Isolated.of_loaded {found : Option Envelope} (finds : file.Finds disk found)
    (loaded : Loaded (registry.namesOf file.id) file.cipher found m m')
    (inside : name ∈ registry.namesOf file.id) (blank : (m.provider name).IsBlank) :
    Isolated registry disk [file] name (m'.provider name) := by
  obtain ⟨opened, taken, now⟩ := loaded name inside
  rw [now]
  refine ⟨blank.dirty, ?_⟩
  cases found with
  | none =>
    obtain rfl : none = opened := Except.ok.inj taken
    exact .inl rfl
  | some envelope =>
    rw [Option.bind_some] at taken
    cases data : envelope.payloadOf? name with
    | none =>
      rw [data] at taken
      obtain rfl : none = opened := Except.ok.inj taken
      exact .inl rfl
    | some data' =>
      rw [data] at taken
      obtain ⟨payload, run, rfl⟩ := mapM_some_eq_ok_iff.1 taken
      exact .inr ⟨file, List.mem_singleton_self file, inside, envelope, data', finds, data, run⟩

/-- Of the files that a switch comes to, every provider is isolated, and no other provider has
changed. -/
theorem isolated_resetAndReadAll (reached : registry.Reached)
    (ends : resetAndReadAll registry disk files m = .ok () m' ∨
      ∃ e, resetAndReadAll registry disk files m = .error e m') :
    (∀ file ∈ attempted registry disk files m, ∀ name ∈ registry.namesOf file.id,
        Isolated registry disk files name (m'.provider name)) ∧
      ∀ name, (∀ file ∈ attempted registry disk files m, name ∉ registry.namesOf file.id) →
        m'.provider name = m.provider name := by
  induction files generalizing m with
  | nil =>
    have same : m' = m := by
      rcases ends with run | ⟨e, run⟩
      · cases run
        rfl
      · cases run
    exact ⟨fun _ h => (by cases h), fun _ _ => by rw [same]⟩
  | cons file rest ih =>
    have wiped := Registry.wiped_reset registry file.id m
    have unfolded : resetAndReadAll registry disk (file :: rest) m =
        match readFile registry disk file (registry.reset file.id m) with
        | .ok () m₁ => resetAndReadAll registry disk rest m₁
        | .error e m₁ => .error e m₁ := by
      simp only [resetAndReadAll, run_bind, run_modify]
      cases readFile registry disk file (registry.reset file.id m) <;> rfl
    rw [unfolded] at ends
    rw [attempted]
    rcases readFile_cases reached disk file (registry.reset file.id m) with
      ⟨found, m₁, run, finds, loaded, elsewhere⟩ | ⟨e, m₁, run, left⟩
    · rw [run] at ends ⊢
      obtain ⟨all, others⟩ := ih ends
      simp only
      refine ⟨fun other here name inside => ?_, fun name outside => ?_⟩
      · by_cases again : ∃ later ∈ attempted registry disk rest m₁, name ∈ registry.namesOf later.id
        · obtain ⟨later, there, inside'⟩ := again
          exact (all later there name inside').mono (List.subset_cons_self _ _)
        · have apart : ∀ later ∈ attempted registry disk rest m₁,
              name ∉ registry.namesOf later.id :=
            fun later there inside' => again ⟨later, there, inside'⟩
          obtain rfl : other = file :=
            (List.mem_cons.1 here).resolve_right fun there => apart other there inside
          rw [others name apart]
          exact (Isolated.of_loaded finds loaded inside (wiped.blank name inside)).mono (by simp)
      · obtain ⟨here, there⟩ := List.forall_mem_cons.1 outside
        rw [others name there, elsewhere name here, wiped.other name here]
    · rw [run] at ends ⊢
      obtain rfl : m₁ = m' := by
        rcases ends with ends | ⟨e', ends⟩
        · cases ends
        · cases ends
          rfl
      refine ⟨fun other here name inside => ?_, fun name outside => ?_⟩
      · obtain rfl := List.mem_singleton.1 here
        rcases left with rfl | again
        · exact .of_blank (wiped.blank name inside)
        · exact .of_blank (again.blank name inside)
      · have here := outside file List.mem_cons_self
        rcases left with rfl | again
        · exact wiped.other name here
        · exact (again.other name here).trans (wiped.other name here)

theorem attempted_of_resetAndReadAll (run : resetAndReadAll registry disk files m = .ok () m') :
    attempted registry disk files m = files := by
  induction files generalizing m with
  | nil => rfl
  | cons file rest ih =>
    obtain ⟨_, m₁, first, run⟩ := run_bind_eq_ok_iff.1 run
    cases first
    obtain ⟨_, m₂, read, run⟩ := run_bind_eq_ok_iff.1 run
    rw [attempted, read]
    exact congrArg _ (ih run)

theorem attempted_isPrefix (registry : Registry) (disk : Disk) (files : List StoreFile)
    (m : Memory) : attempted registry disk files m <+: files := by
  induction files generalizing m with
  | nil => exact List.prefix_rfl
  | cons file rest ih =>
    rw [attempted]
    refine List.cons_prefix_cons.2 ⟨rfl, ?_⟩
    split
    · exact ih _
    · exact List.nil_prefix

/-! ### Whole switches -/

/-- Which providers are reset is decided by the ids of the files. -/
theorem resetAll_bare (registry : Registry) (files : List StoreFile) (m : Memory) :
    resetAll registry (files.map (·.bare)) m = resetAll registry files m := by
  rw [resetAll, List.foldl_map]
  rfl

variable {s s' : Store Memory}

/-- Making way for new files resets the providers of the outgoing files. -/
theorem providers_of_leaveUserFiles (left : leaveUserFiles s = .ok () s') :
    s'.registry = s.registry ∧ s'.providers = resetAll s.registry s.outgoing s.providers := by
  have disarmed (t : Store Memory) (m : Memory) :
      ({ t with providers := m } : Store Memory).disarm.holdings =
        { t.holdings with providers := m } :=
    holdings_disarm _
  unfold leaveUserFiles at left
  simp only [run_bind, run_get] at left
  cases waiting : s.isWaiting with
  | false =>
    simp only [waiting, Bool.false_eq_true, if_false] at left
    cases left
    exact ⟨congrArg Holdings.registry (disarmed s _), congrArg Holdings.providers (disarmed s _)⟩
  | true =>
    simp only [waiting, if_true, run_bind] at left
    split at left
    · rename_i t run
      cases left
      obtain ⟨-, moved⟩ := commit_eq_ok run
      have registry : t.registry = s.registry := congrArg Holdings.registry moved
      have providers : t.providers = s.providers := congrArg Holdings.providers moved
      have files : t.files.map (·.bare) = s.files.map (·.bare) :=
        (congrArg (fun h : Holdings Memory => h.files.map (·.bare)) moved).trans
          (bare_commitAll _ _ _)
      have outgoing : t.outgoing.map (·.bare) = s.outgoing.map (·.bare) :=
        (List.cons.inj files).2
      refine ⟨(congrArg Holdings.registry (disarmed t _)).trans registry,
        (congrArg Holdings.providers (disarmed t _)).trans ?_⟩
      show resetAll t.registry t.outgoing t.providers = _
      rw [registry, providers, ← resetAll_bare, outgoing, resetAll_bare]
    · cases left

/-- The new files are read after the providers of the outgoing ones have been reset. -/
theorem resetAndReadAll_of_switch (files : List StoreFile) (leaves : Succeeds leaveUserFiles s) :
    let t := after (switchUserFiles files) s
    let m := resetAll s.registry s.outgoing s.providers
    (Succeeds (switchUserFiles files) s ∧
        resetAndReadAll s.registry t.disk files m = .ok () t.providers) ∨
      (¬ Succeeds (switchUserFiles files) s ∧
        ∃ e, resetAndReadAll s.registry t.disk files m = .error e t.providers) := by
  intro t m
  obtain ⟨⟨⟩, s', left⟩ := leaves
  obtain ⟨registry, providers⟩ := providers_of_leaveUserFiles left
  have disk : t.disk = s'.disk := (after_switchUserFiles files left).2
  have unfolded : switchUserFiles files s =
      timedReading (resetAndReadAll s.registry t.disk files) (s'.setUserFiles files) := by
    rw [switchUserFiles_of_left files left, registry, ← disk]
  have start : (s'.setUserFiles files).providers = m := providers
  have final : after (timedReading (resetAndReadAll s.registry t.disk files))
      (s'.setUserFiles files) = t := by
    show _ = after (switchUserFiles files) s
    rw [after, after, unfolded]
  have ends := timedReading_cases (resetAndReadAll s.registry t.disk files) (s'.setUserFiles files)
  rw [final, start] at ends
  rwa [Succeeds, unfolded]

/-- Once a switch has installed new files, the providers of the outgoing files and of those that it
came to are isolated, whether it succeeds or fails. It comes to all of them if it succeeds. No other
provider has changed. -/
theorem providers_after_switch (reached : s.registry.Reached) (files : List StoreFile)
    (leaves : Succeeds leaveUserFiles s) :
    let t := after (switchUserFiles files) s
    let tried := attempted s.registry t.disk files
      (resetAll s.registry s.outgoing s.providers)
    t.users = some files ∧ tried <+: files ∧ (Succeeds (switchUserFiles files) s → tried = files) ∧
      (∀ file ∈ s.outgoing ++ tried, ∀ name ∈ s.registry.namesOf file.id,
        Isolated s.registry t.disk files name (t.providers.provider name)) ∧
      ∀ name, (∀ file ∈ s.outgoing ++ tried, name ∉ s.registry.namesOf file.id) →
        t.providers.provider name = s.providers.provider name := by
  intro t tried
  have installed : t.users = some files := by
    obtain ⟨⟨⟩, s', left⟩ := leaves
    exact (after_switchUserFiles files left).1
  have wiped := wiped_resetAll s.registry s.outgoing s.providers
  have read := resetAndReadAll_of_switch files leaves
  have complete (succeeds : Succeeds (switchUserFiles files) s) : tried = files := by
    rcases read with ⟨-, run⟩ | ⟨failed, -⟩
    · exact attempted_of_resetAndReadAll run
    · exact absurd succeeds failed
  have ends := read.imp (fun h => h.2) (fun h => h.2)
  obtain ⟨all, others⟩ := isolated_resetAndReadAll reached ends
  refine ⟨installed, attempted_isPrefix _ _ _ _, complete, fun file here name inside => ?_,
    fun name outside => ?_⟩
  · by_cases again : ∃ later ∈ tried, name ∈ s.registry.namesOf later.id
    · obtain ⟨later, there, inside'⟩ := again
      exact all later there name inside'
    · have apart : ∀ later ∈ tried, name ∉ s.registry.namesOf later.id :=
        fun later there inside' => again ⟨later, there, inside'⟩
      have old : file ∈ s.outgoing :=
        (List.mem_append.1 here).resolve_right fun there => apart file there inside
      rw [others name apart]
      exact .of_blank (wiped.blank name (List.mem_flatMap.2 ⟨file, old, inside⟩))
  · obtain ⟨old, new⟩ := List.forall_mem_append.1 outside
    rw [others name new]
    refine wiped.other name fun inside => ?_
    obtain ⟨file, here, inside⟩ := List.mem_flatMap.1 inside
    exact old file here inside

/-! ### A new file that cannot be read -/

/-- A store without a user, in which a provider has already been given data for a file of the next
one. Of that user's files, the first is no document. -/
def beforeLogin : Store Memory :=
  let s := Store.new .default (.new ⟨"s.xml"⟩ .sharedGeneral none)
    (Memory.empty.update "S" (·.set (Utf8.encode ['o', 'l', 'd'])))
    (.ofFiles (FileSystem.new.insert ["c.xml"] (.file (Utf8.encode ['?']) 0o600))) (.new false)
  after (register "S" (some .userNetworkSuggestions)) (after (register "U" (some .userGeneral)) s)

def loginFiles : List StoreFile :=
  [.new ⟨"c.xml"⟩ .userGeneral none, .new ⟨"n.xml"⟩ .userNetworkSuggestions none]

theorem reached_beforeLogin : beforeLogin.registry.Reached := by
  have first := Registry.Reached.new .primary .default
  have second := @Registry.Reached.register _ _ "U" (some .userGeneral) first rfl
  exact @Registry.Reached.register _ _ "S" (some .userNetworkSuggestions) second rfl

theorem leaves_beforeLogin : Succeeds leaveUserFiles beforeLogin := by
  decide +kernel

/-- The provider of the first file is isolated, that of the second one keeps what it had. -/
theorem providers_after_login :
    let t := after (switchUserFiles loginFiles) beforeLogin
    t.users = some loginFiles ∧
      Isolated beforeLogin.registry t.disk loginFiles "U" (t.providers.provider "U") ∧
      t.providers.provider "S" = beforeLogin.providers.provider "S" := by
  intro t
  obtain ⟨installed, -, -, isolated, others⟩ :=
    providers_after_switch reached_beforeLogin loginFiles leaves_beforeLogin
  refine ⟨installed, isolated (.new ⟨"c.xml"⟩ .userGeneral none) (by simp [loginFiles, attempted])
    "U" (by decide +kernel), others "S" ?_⟩
  decide +kernel

theorem exists_ok_of_any {ε α : Type} {result : Except ε α} {p : α → Bool}
    (held : result.toOption.any p = true) : ∃ a, result = .ok a ∧ p a = true := by
  cases result with
  | error e => cases held
  | ok a => exact ⟨a, rfl, held⟩

/-- What was there before the switch is in the memory of a provider of the new user, and a forced
write puts it into that user's file. -/
theorem switch_keeps_unread_providers :
    Succeeds leaveUserFiles beforeLogin ∧
      let t := after (switchUserFiles loginFiles) beforeLogin
      "S" ∈ t.registry.namesOf .userNetworkSuggestions ∧
        (t.providers.provider "S").payload = Utf8.encode ['o', 'l', 'd'] ∧
        (t.providers.provider "S").dirty = true ∧
        ∃ document envelope, (after (write true) t).disk.read? ⟨"n.xml"⟩ = .ok (some document) ∧
          Envelope.decode document = .ok envelope ∧
          envelope.payloadOf? "S" = some (Utf8.encode ['o', 'l', 'd']) := by
  refine ⟨leaves_beforeLogin, ?_⟩
  intro t
  have written : ((after (write true) t).disk.read? ⟨"n.xml"⟩).toOption.any (·.any fun document =>
      (Envelope.decode document).toOption.any fun envelope =>
        decide (envelope.payloadOf? "S" = some (Utf8.encode ['o', 'l', 'd']))) = true := by
    decide +kernel
  obtain ⟨content, read, held⟩ := exists_ok_of_any written
  obtain ⟨document, rfl, held⟩ := (Option.any_eq_true _ _).1 held
  obtain ⟨envelope, decoded, held⟩ := exists_ok_of_any held
  exact ⟨by decide +kernel, by decide +kernel, by decide +kernel, document, envelope, read, decoded,
    of_decide_eq_true held⟩

end SectionStore.Store
