import Mathlib.Data.List.Perm.Basic
import SectionStore.Proofs.Envelope.RoundTrip
import SectionStore.Proofs.Registry.Reached
import SectionStore.Provider.Memory
import SectionStore.Registry.Dispatch

/-!
# Which hooks a file calls

A host can be made to keep a record of the calls of its hooks (`Recorded`). The record of handing a
file to its providers is what the file asks for (`Asks`): one call for each provider of the file, up
to the first failure; then all providers of the file are reset (`deliver_cases`). A document that is
refused calls nobody. `deserialize_calls` is the whole law, for any host whatever its hooks do.
-/

namespace SectionStore

/-! ### Records of calls -/

/-- A call of a hook that can change a provider. -/
inductive HookCall where
  | serialize (name : String) (cipher : Option Cipher) (failure : Option ProviderError)
  | deserialize (name : String) (content : Option ByteArray) (version : Option DataVersion)
      (cipher : Option Cipher) (failure : Option ProviderError)
  | reset (name : String)

/-- A host with the record of the calls made so far. -/
structure Recorded (W : Type) where
  host : W
  calls : List HookCall

namespace Recorded

variable {W : Type}

/-- A call that went well, or one that failed, is noted after it was made. -/
def note {α : Type} (call : Option ProviderError → HookCall) (hook : EStateM ProviderError W α) :
    EStateM ProviderError (Recorded W) α := fun r =>
  match hook r.host with
  | .ok a host => .ok a ⟨host, r.calls ++ [call none]⟩
  | .error e host => .error e ⟨host, r.calls ++ [call (some e)]⟩

theorem note_of_ok {α : Type} {call : Option ProviderError → HookCall}
    {hook : EStateM ProviderError W α} {r : Recorded W} {a : α} {host : W}
    (run : hook r.host = .ok a host) : note call hook r = .ok a ⟨host, r.calls ++ [call none]⟩ := by
  rw [note, run]

theorem note_of_error {α : Type} {call : Option ProviderError → HookCall}
    {hook : EStateM ProviderError W α} {r : Recorded W} {e : ProviderError} {host : W}
    (run : hook r.host = .error e host) :
    note call hook r = .error e ⟨host, r.calls ++ [call (some e)]⟩ := by
  rw [note, run]

/-- Recording changes nothing else about the hooks. Asking for new data cannot change a provider
and is not noted. -/
instance [ProviderHost W] : ProviderHost (Recorded W) where
  serialize name cipher := note (.serialize name cipher) (ProviderHost.serialize name cipher)
  deserialize name content version cipher :=
    note (.deserialize name content version cipher)
      (ProviderHost.deserialize name content version cipher)
  reset name r := ⟨ProviderHost.reset name r.host, r.calls ++ [.reset name]⟩
  hasNewData name r := ProviderHost.hasNewData name r.host

end Recorded

namespace PlannedCall

/-- The call of the owner of a section. -/
def ofSection (s : Section) : PlannedCall :=
  ⟨s.name, some s.payload⟩

/-- The call of a provider that has no section. -/
def withoutContent (name : String) : PlannedCall :=
  ⟨name, none⟩

/-- A planned call as it is recorded. -/
def made (version : Option DataVersion) (cipher : Option Cipher) (failure : Option ProviderError)
    (call : PlannedCall) : HookCall :=
  .deserialize call.name call.content version cipher failure

end PlannedCall

namespace Registry

/-! ### What a file asks for -/

/-- The calls that the content of a file asks for. Without a file, every provider is told so.
Otherwise the owners of the sections come first, in the order of the document, and then the other
providers of the file. Content that asks for nothing is refused. -/
inductive Asks (registry : Registry) (file : FileId) :
    Option ByteArray → Option DataVersion → List PlannedCall → Prop where
  | absent : Asks registry file none none ((registry.namesOf file).map .withoutContent)
  | document {octets : ByteArray} {envelope : Envelope}
      (decoded : Envelope.decode octets = .ok envelope)
      (known : ∀ s ∈ envelope.sections, s.name ∈ registry.namesOf file)
      (distinct : (envelope.sections.map (·.name)).Nodup) :
      Asks registry file (some octets) (some envelope.version)
        (envelope.sections.map .ofSection ++
          ((registry.namesOf file).filter (· ∉ envelope.sections.map (·.name))).map .withoutContent)

variable {registry : Registry} {file : FileId}

/-- A section that is known has an owner of its name. -/
theorem owner?_of_known {s : Section} (known : s.name ∈ registry.namesOf file) :
    registry.owner? file s = some ⟨s.name, file⟩ := by
  cases found : registry.owner? file s with
  | none => simpa using List.find?_eq_none.1 found _ (mem_namesOf_iff.1 known)
  | some r =>
    obtain ⟨name, owned⟩ := r
    have here := List.find?_some found
    simp only [Bool.and_eq_true, decide_eq_true_eq] at here
    obtain ⟨rfl, rfl⟩ := here
    rfl

/-- If all sections are known, their owners are called in their order, and then the other providers
of the file in the order of registration. -/
theorem plan_of_known {sections : List Section}
    (known : ∀ s ∈ sections, s.name ∈ registry.namesOf file) :
    registry.plan file sections =
      sections.map .ofSection ++
        ((registry.namesOf file).filter (· ∉ sections.map (·.name))).map .withoutContent := by
  have owners : sections.filterMap (fun s =>
      (registry.owner? file s).map fun r => ⟨r.name, some s.payload⟩) =
        sections.map PlannedCall.ofSection := by
    rw [← List.filterMap_eq_map]
    exact List.filterMap_congr fun s hs => by rw [owner?_of_known (known s hs)]; rfl
  rw [plan, owners, namesOf, List.filter_map, List.filter_filter, List.map_map]
  congr 2
  exact List.filter_congr fun r _ => by simp [Bool.and_comm]

theorem Reached.nodup_namesOf (reached : registry.Reached) (file : FileId) :
    (registry.namesOf file).Nodup :=
  reached.nodup_names.sublist (List.filter_sublist.map _)

/-- A file asks for one call of each of its providers. -/
theorem Asks.perm (reached : registry.Reached) {content : Option ByteArray}
    {version : Option DataVersion} {calls : List PlannedCall}
    (asks : Asks registry file content version calls) :
    (calls.map (·.name)).Perm (registry.namesOf file) := by
  have nodup := reached.nodup_namesOf file
  have ofSections (sections : List Section) :
      (sections.map PlannedCall.ofSection).map (·.name) = sections.map (·.name) :=
    List.map_map
  have withoutContent (names : List String) :
      (names.map PlannedCall.withoutContent).map (·.name) = names := by
    rw [List.map_map]
    exact List.map_id names
  cases asks with
  | absent => rw [withoutContent]
  | @document octets envelope decoded known distinct =>
    rw [List.map_append, ofSections, withoutContent]
    apply (List.perm_ext_iff_of_nodup ?_ nodup).2
    · intro name
      rw [List.mem_append, List.mem_filter, decide_eq_true_eq]
      constructor
      · rintro (owner | ⟨other, -⟩)
        · obtain ⟨s, hs, rfl⟩ := List.mem_map.1 owner
          exact known s hs
        · exact other
      · intro inside
        by_cases owner : name ∈ envelope.sections.map (·.name)
        · exact .inl owner
        · exact .inr ⟨inside, owner⟩
    · apply List.Nodup.append distinct (nodup.filter _)
      intro name owner other
      have apart := (List.mem_filter.1 other).2
      rw [decide_eq_true_eq] at apart
      exact apart owner

/-! ### Which documents are accepted -/

/-- Sections pass the check if each has an owner and none comes twice. -/
theorem checkSections_eq_ok_iff {known seen : List String} {sections : List Section} :
    checkSections file known seen sections = .ok () ↔
      (∀ s ∈ sections, s.name ∈ known) ∧ (sections.map (·.name)).Nodup ∧
        ∀ s ∈ sections, s.name ∉ seen := by
  induction sections generalizing seen with
  | nil => simp [checkSections]
  | cons s rest ih =>
    rw [checkSections]
    split
    · rename_i foreign
      constructor
      · intro h
        cases h
      · rintro ⟨owned, -⟩
        exact absurd (owned s List.mem_cons_self) foreign
    rename_i owned
    rw [not_not] at owned
    split
    · rename_i again
      constructor
      · intro h
        cases h
      · rintro ⟨-, -, fresh⟩
        exact absurd again (fresh s List.mem_cons_self)
    rename_i fresh
    rw [ih, List.forall_mem_cons, List.forall_mem_cons, List.map_cons, List.nodup_cons]
    constructor
    · rintro ⟨others, nodup, apart⟩
      refine ⟨⟨owned, others⟩, ⟨?_, nodup⟩, fresh, ?_⟩
      · intro inside
        obtain ⟨other, hother, same⟩ := List.mem_map.1 inside
        exact apart other hother (List.mem_append_right _ (by simp [same]))
      · intro other hother there
        exact apart other hother (List.mem_append_left _ there)
    · rintro ⟨⟨-, others⟩, ⟨alone, nodup⟩, -, apart⟩
      refine ⟨others, nodup, ?_⟩
      intro other hother there
      rcases List.mem_append.1 there with there | there
      · exact apart other hother there
      · exact alone (List.mem_map.2 ⟨other, hother, by simpa using there⟩)

/-- A document is accepted if it decodes and its sections pass the check. -/
theorem parse_eq_ok_iff {octets : ByteArray} {envelope : Envelope} :
    registry.parse file octets = .ok envelope ↔
      Envelope.decode octets = .ok envelope ∧
        (∀ s ∈ envelope.sections, s.name ∈ registry.namesOf file) ∧
        (envelope.sections.map (·.name)).Nodup := by
  unfold parse Envelope.decode
  cases Envelope.Parser.ofBytes octets with
  | error e => simp [Bind.bind, Except.bind, Except.mapError]
  | ok p =>
    simp only [Except.mapError, Bind.bind, Except.bind]
    cases Envelope.Parser.readHeader p with
    | error e p' => simp [MonadExcept.throw, throwThe, MonadExceptOf.throw]
    | ok version p' =>
      simp only
      cases p'.sections with
      | mk sections fault =>
        simp only
        cases checked : checkSections file (registry.namesOf file) [] sections with
        | error e =>
          have refused : ¬ ((∀ s ∈ sections, s.name ∈ registry.namesOf file) ∧
              (sections.map (·.name)).Nodup) := by
            rintro ⟨known, distinct⟩
            have unseen : ∀ s ∈ sections, s.name ∉ [] := fun _ _ => List.not_mem_nil
            rw [checkSections_eq_ok_iff.2 ⟨known, distinct, unseen⟩] at checked
            cases checked
          constructor
          · intro h
            cases h
          · rintro ⟨decoded, known, distinct⟩
            cases fault with
            | some e => cases decoded
            | none =>
              cases decoded
              exact absurd ⟨known, distinct⟩ refused
        | ok u =>
          obtain ⟨known, distinct, -⟩ := checkSections_eq_ok_iff.1 checked
          cases fault with
          | some e => simp [MonadExcept.throw, throwThe, MonadExceptOf.throw]
          | none =>
            constructor
            · intro h
              cases h
              exact ⟨rfl, known, distinct⟩
            · rintro ⟨decoded, -⟩
              cases decoded
              rfl

/-- A refused document is to blame itself. -/
theorem isParseError_of_parse {octets : ByteArray} {e : RegistryError}
    (refused : registry.parse file octets = .error e) : e.isParseError = true := by
  have ofCheck {known seen : List String} {sections : List Section} {e : RegistryError}
      (failed : checkSections file known seen sections = .error e) : e.isParseError = true := by
    induction sections generalizing seen with
    | nil => cases failed
    | cons s rest ih =>
      rw [checkSections] at failed
      split at failed
      · cases failed
        rfl
      split at failed
      · cases failed
        rfl
      · exact ih failed
  unfold parse at refused
  cases began : Envelope.Parser.ofBytes octets with
  | error fault =>
    rw [began] at refused
    cases refused
    rfl
  | ok p =>
    simp only [began, Except.mapError, Bind.bind, Except.bind] at refused
    split at refused
    · cases refused
      rfl
    · split at refused
      · rename_i failed
        cases refused
        exact ofCheck failed
      · split at refused
        · cases refused
        · cases refused
          rfl

/-! ### Making the calls -/

variable {W : Type} [ProviderHost W]

theorem resetNames_recorded (names : List String) (w : W) (calls : List HookCall) :
    resetNames names (⟨w, calls⟩ : Recorded W) =
      ⟨resetNames names w, calls ++ names.map .reset⟩ := by
  induction names generalizing w calls with
  | nil => rw [List.map_nil, List.append_nil]; rfl
  | cons name rest ih =>
    have first : resetNames (name :: rest) (⟨w, calls⟩ : Recorded W) =
        resetNames rest ⟨ProviderHost.reset name w, calls ++ [.reset name]⟩ := rfl
    rw [first, ih, List.append_assoc]
    rfl

theorem deliver_cons (version : Option DataVersion) (cipher : Option Cipher) (call : PlannedCall)
    (rest : List PlannedCall) (w : W) :
    registry.deliver file version cipher (call :: rest) w =
      match ProviderHost.deserialize call.name call.content version cipher w with
      | .ok () w' => registry.deliver file version cipher rest w'
      | .error e w' => .error (.provider call.name e) (registry.reset file w') :=
  rfl

/-- The calls are made in order. The first one that fails is followed by the resets, and by nothing
else. -/
theorem deliver_cases (registry : Registry) (file : FileId) (version : Option DataVersion)
    (cipher : Option Cipher) (plan : List PlannedCall) (w : W) (calls : List HookCall) :
    (∃ w', registry.deliver file version cipher plan w = .ok () w' ∧
        registry.deliver file version cipher plan (⟨w, calls⟩ : Recorded W) =
          .ok () ⟨w', calls ++ plan.map (·.made version cipher none)⟩) ∨
      ∃ before failing after e w', plan = before ++ failing :: after ∧
        registry.deliver file version cipher plan w = .error (.provider failing.name e) w' ∧
        registry.deliver file version cipher plan (⟨w, calls⟩ : Recorded W) =
          .error (.provider failing.name e)
            ⟨w', calls ++ (before.map (·.made version cipher none) ++
              failing.made version cipher (some e) :: (registry.namesOf file).map .reset)⟩ := by
  induction plan generalizing w calls with
  | nil =>
    left
    refine ⟨w, rfl, ?_⟩
    rw [List.map_nil, List.append_nil]
    rfl
  | cons call rest ih =>
    cases hook : ProviderHost.deserialize call.name call.content version cipher w with
    | error e w₁ =>
      have noted : ProviderHost.deserialize call.name call.content version cipher
          (⟨w, calls⟩ : Recorded W) =
          .error e ⟨w₁, calls ++ [call.made version cipher (some e)]⟩ :=
        Recorded.note_of_error hook
      right
      refine ⟨[], call, rest, e, registry.reset file w₁, rfl, ?_, ?_⟩
      · rw [deliver_cons, hook]
      · rw [deliver_cons, noted]
        simp only [reset, resetNames_recorded, List.append_assoc]
        rfl
    | ok u w₁ =>
      have noted : ProviderHost.deserialize call.name call.content version cipher
          (⟨w, calls⟩ : Recorded W) =
          .ok () ⟨w₁, calls ++ [call.made version cipher none]⟩ :=
        Recorded.note_of_ok hook
      rcases ih w₁ (calls ++ [call.made version cipher none]) with
        ⟨w', run, recorded⟩ | ⟨before, failing, after, e, w', split, run, recorded⟩
      · left
        refine ⟨w', ?_, ?_⟩
        · rw [deliver_cons, hook]
          exact run
        · rw [deliver_cons, noted]
          simpa using recorded
      · right
        refine ⟨call :: before, failing, after, e, w', by rw [split, List.cons_append], ?_, ?_⟩
        · rw [deliver_cons, hook]
          exact run
        · rw [deliver_cons, noted]
          simpa using recorded

/-! ### The whole -/

/-- A result together with the state that it leaves behind. -/
def ending {ε σ α : Type} : Except ε α → σ → EStateM.Result ε σ α
  | .ok a, s => .ok a s
  | .error e, s => .error e s

/-- Handing the content of a file to its providers ends with a result and makes the calls. That they
are recorded makes no difference to the result and to the host. -/
def Hands (registry : Registry) (content : Option ByteArray) (file : FileId)
    (cipher : Option Cipher) (w : W) (result : Except RegistryError Unit)
    (calls : List HookCall) : Prop :=
  ∃ w', registry.deserialize content file cipher w = ending result w' ∧
    registry.deserialize content file cipher (⟨w, []⟩ : Recorded W) = ending result ⟨w', calls⟩

/-- What a file asks for is what the registry plans for it, and is delivered. -/
theorem Asks.deserialize {content : Option ByteArray} {version : Option DataVersion}
    {plan : List PlannedCall} (asks : Asks registry file content version plan)
    (cipher : Option Cipher) (w : W) :
    registry.deserialize content file cipher w =
      registry.deliver file version cipher plan w := by
  cases asks with
  | absent =>
    have all : (registry.namesOf file).filter (· ∉ ([] : List Section).map (·.name)) =
        registry.namesOf file := List.filter_eq_self.2 fun name _ => by simp
    rw [Registry.deserialize, plan_of_known (List.forall_mem_nil _), all]
    rfl
  | document decoded known distinct =>
    have parsed := parse_eq_ok_iff.2 ⟨decoded, known, distinct⟩
    rw [Registry.deserialize, parsed, ← plan_of_known known]

/-- Content that asks for nothing is a document that is not accepted. -/
theorem refused_of_not_asks {content : Option ByteArray}
    (nothing : ∀ version plan, ¬ Asks registry file content version plan) :
    ∃ octets e, content = some octets ∧ registry.parse file octets = .error e := by
  cases content with
  | none => exact absurd .absent (nothing _ _)
  | some octets =>
    cases parsed : registry.parse file octets with
    | error e => exact ⟨octets, e, rfl, parsed⟩
    | ok envelope =>
      obtain ⟨decoded, known, distinct⟩ := parse_eq_ok_iff.1 parsed
      exact absurd (.document decoded known distinct) (nothing _ _)

/-- The law of handing a file to its providers, in a registry that has been reached. Content that is
refused calls no hook. Otherwise each provider of the file is called once, in the order that the
content asks for; or a hook fails, the calls end with it, each provider of the file is reset once,
and the error names the provider that failed. -/
theorem deserialize_calls (reached : registry.Reached) (content : Option ByteArray)
    (cipher : Option Cipher) (w : W) :
    ((∀ version plan, ¬ Asks registry file content version plan) →
        ∃ e, e.isParseError = true ∧ Hands registry content file cipher w (.error e) []) ∧
      ∀ version plan, Asks registry file content version plan →
        (registry.namesOf file).Nodup ∧ (plan.map (·.name)).Perm (registry.namesOf file) ∧
          (Hands registry content file cipher w (.ok ()) (plan.map (·.made version cipher none)) ∨
            ∃ before failing after e, plan = before ++ failing :: after ∧
              Hands registry content file cipher w (.error (.provider failing.name e))
                (before.map (·.made version cipher none) ++
                  failing.made version cipher (some e) ::
                    (registry.namesOf file).map .reset)) := by
  constructor
  · intro nothing
    obtain ⟨octets, e, rfl, refused⟩ := refused_of_not_asks nothing
    refine ⟨e, isParseError_of_parse refused, w, ?_, ?_⟩
    · rw [Registry.deserialize, refused]
      rfl
    · rw [Registry.deserialize, refused]
      rfl
  · intro version plan asks
    refine ⟨reached.nodup_namesOf file, asks.perm reached, ?_⟩
    rcases deliver_cases registry file version cipher plan w [] with
      ⟨w', run, recorded⟩ | ⟨before, failing, after, e, w', split, run, recorded⟩
    · left
      refine ⟨w', ?_, ?_⟩
      · rw [asks.deserialize, run]
        rfl
      · rw [asks.deserialize, recorded]
        rfl
    · right
      refine ⟨before, failing, after, e, split, w', ?_, ?_⟩
      · rw [asks.deserialize, run]
        rfl
      · rw [asks.deserialize, recorded]
        rfl

/-- A registry with three providers in the shared file, and one in a file of the user. -/
def threeShared : Registry :=
  ⟨.primary, .default, [⟨"A", .sharedGeneral⟩, ⟨"D", .userGeneral⟩, ⟨"B", .sharedGeneral⟩,
    ⟨"C", .sharedGeneral⟩]⟩

theorem reached_threeShared : threeShared.Reached := by
  have first : (Registry.new .primary .default).register "A" (some .sharedGeneral) = .ok _ := rfl
  have second := Reached.register (.new .primary .default) first
  have third := @Reached.register _ _ "D" (some .userGeneral) second rfl
  have fourth := @Reached.register _ _ "B" (some .sharedGeneral) third rfl
  exact @Reached.register _ _ "C" (some .sharedGeneral) fourth rfl

/-- A document with sections for two of them, the later one first. -/
def twoSections : Envelope :=
  ⟨.current, [⟨"B", Utf8.encode ['2']⟩, ⟨"A", Utf8.encode ['1']⟩]⟩

/-- Providers of which one refuses what it is handed. -/
def refusing (name : String) : Memory :=
  Memory.empty.update name fun p => { p with plan := ⟨none, some (.other "refused"), .any⟩ }

/-- The provider that comes second refuses its section. The third one is not called any more. -/
theorem deserialize_calls_threeShared :
    ∃ octets, Asks threeShared .sharedGeneral (some octets) (some .current)
        [⟨"B", some (Utf8.encode ['2'])⟩, ⟨"A", some (Utf8.encode ['1'])⟩, ⟨"C", none⟩] ∧
      Hands threeShared (some octets) .sharedGeneral none (refusing "A")
        (.error (.provider "A" (.other "refused")))
        [.deserialize "B" (some (Utf8.encode ['2'])) (some .current) none none,
          .deserialize "A" (some (Utf8.encode ['1'])) (some .current) none
            (some (.other "refused")),
          .reset "A", .reset "B", .reset "C"] := by
  have accepted : twoSections.encode.isOk = true := by decide +kernel
  cases written : twoSections.encode with
  | error e => simp [written, Except.isOk, Except.toBool] at accepted
  | ok octets =>
    have decoded : Envelope.decode octets = .ok twoSections := by
      obtain ⟨lines, hlines, rfl⟩ := Envelope.encode_eq_ok written
      exact Envelope.decode_document hlines
    have asks : Asks threeShared .sharedGeneral (some octets) (some .current)
        [⟨"B", some (Utf8.encode ['2'])⟩, ⟨"A", some (Utf8.encode ['1'])⟩, ⟨"C", none⟩] :=
      .document decoded (by decide) (by decide)
    refine ⟨octets, asks, ?_⟩
    obtain ⟨-, law⟩ := deserialize_calls reached_threeShared (some octets) none (refusing "A")
    obtain ⟨-, -, outcome⟩ := law _ _ asks
    obtain ⟨w₁, plain⟩ : ∃ w₁, threeShared.deserialize (some octets) .sharedGeneral none
        (refusing "A") = .error (.provider "A" (.other "refused")) w₁ := by
      rw [asks.deserialize]
      exact ⟨_, rfl⟩
    rcases outcome with ⟨w', run, -⟩ | ⟨before, failing, after, e, split, hands⟩
    · rw [plain] at run
      cases run
    · have named : failing.name = "A" ∧ e = .other "refused" := by
        obtain ⟨w', run, -⟩ := hands
        rw [plain, ending] at run
        simp only [EStateM.Result.error.injEq, RegistryError.provider.injEq] at run
        exact ⟨run.1.1.symm, run.1.2.symm⟩
      obtain ⟨named, rfl⟩ := named
      -- the second call of the plan is the only one of A
      rcases before with _ | ⟨first, _ | ⟨second, _ | ⟨third, more⟩⟩⟩
      · cases split
        exact absurd named (by decide)
      · cases split
        exact hands
      · cases split
        exact absurd named (by decide)
      · simp at split

end Registry

end SectionStore
