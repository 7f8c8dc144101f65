import SectionStore.Proofs.Running
import SectionStore.Proofs.Store.Landing
import SectionStore.Proofs.Store.Settled
import SectionStore.Provider.Memory

/-!
# Debounced writing comes to the same as immediate writing

A store may leave what it has buffered to the alarm, or commit it with each write. A run in which
nothing fails is compared with the run in which every write is forced and no alarm goes off
(`atOnce`). At each moment the second store has on disk what the first has in its buffers or on disk
(`Mirrors`); after a forced write at the end both hold the same (`debounced_refines_immediate`). The
paths of two files must not lead to one place, where the order of the commits is seen
(`debounced_differs_at_one_place`).

Why the second run cannot fail either is seen from the end: what is buffered at some moment is
committed later on, so it can be committed at that moment (`committable_of_runAll`).
-/

namespace SectionStore

open FileSystem

namespace Store

open Holdings

/-! ### The comparison -/

variable {W : Type}

/-- What one store has in its buffers or on disk, another one without buffers has on disk. In all
else they agree. -/
structure Mirrors (old new : Holdings W) : Prop where
  registry : new.registry = old.registry
  providers : new.providers = old.providers
  files : new.files = old.files.map (·.bare)
  directories : SameDirectories old.disk.files new.disk.files
  device : new.disk.refuses = old.disk.refuses
  contents : ∀ location,
    new.disk.files.get? location = overlay? old.disk.files old.files location

variable {h h' old new : Holdings W}

theorem mirrors_self (empty : ∀ file ∈ h.files, file.pending = none) : Mirrors h h :=
  ⟨rfl, rfl, (map_bare_of_no_pending empty).symm, .rfl, rfl,
    fun _ => (overlay?_of_no_pending empty).symm⟩

theorem Mirrors.bare (mirrors : Mirrors old new) :
    new.files.map (·.bare) = old.files.map (·.bare) := by
  rw [mirrors.files, List.map_map]
  rfl

theorem Mirrors.separate (mirrors : Mirrors old new)
    (separate : Separate old.disk.files old.files) : Separate new.disk.files new.files :=
  separate_of_bare mirrors.bare (separate.congr mirrors.directories)

/-- A commit of the buffers changes nothing in the comparison. -/
theorem Mirrors.committed (mirrors : Mirrors old new)
    (separate : Separate old.disk.files old.files)
    (committable : Committable old.disk old.files) : Mirrors old.committed new := by
  constructor
  · exact mirrors.registry
  · exact mirrors.providers
  · rw [mirrors.files]
    exact (bare_commitAll _ _ _).symm
  · exact (sameDirectories_commitAll _ _ _).symm.trans mirrors.directories
  · exact mirrors.device.trans (refuses_commitAll _ _ _).symm
  · intro location
    rw [mirrors.contents]
    exact (overlay?_commitAll separate committable).symm

variable [ProviderHost W]

/-- Both stores refresh in the same way, as buffers do not matter for that. -/
theorem Mirrors.refresh (mirrors : Mirrors old new) :
    new.refreshResult = old.refreshResult ∧ new.refreshed.providers = old.refreshed.providers ∧
      new.servings = old.servings := by
  obtain ⟨run, log⟩ := refreshAll_bare old.registry old.files old.providers
  have run' : (refreshAll new.registry new.files new.providers).2 =
      (refreshAll old.registry old.files old.providers).2 := by
    rw [mirrors.registry, mirrors.files, mirrors.providers, run]
  refine ⟨congrArg (·.2) run', congrArg (·.1) run', ?_⟩
  show Store.servings new.registry new.files new.providers = _
  rw [mirrors.registry, mirrors.files, mirrors.providers, log]
  rfl

/-- The store without buffers has buffered just what was built. -/
theorem Mirrors.files_refreshed (mirrors : Mirrors old new)
    (separate : Separate old.disk.files old.files) :
    new.refreshed.files = old.files.map (·.bare.served old.servings) := by
  rw [Holdings.files_refreshed (mirrors.separate separate), mirrors.refresh.2.2, mirrors.files,
    List.map_map]
  rfl

/-- What was built is buffered by both stores, so one can commit it if the other can. -/
theorem Mirrors.committable_refreshed (mirrors : Mirrors old new)
    (separate : Separate old.disk.files old.files)
    (committable : Committable old.disk old.refreshed.files) :
    Committable new.disk new.refreshed.files := by
  rw [Holdings.files_refreshed separate] at committable
  rw [mirrors.files_refreshed separate]
  intro file hfile built
  obtain ⟨original, horiginal, rfl⟩ := List.mem_map.1 hfile
  have buffered : (original.served old.servings).pending ≠ none := by
    rw [StoreFile.pending_served]
    intro empty
    simp only [Option.orElse_eq_orElse, Option.orElse_eq_or, Option.or_eq_none_iff] at empty
    exact built empty.1
  obtain ⟨location, allowed⟩ := committable _ (List.mem_map_of_mem horiginal) buffered
  exact ⟨location, allowed.congr mirrors.directories mirrors.device⟩

/-- After a refresh on both sides and a commit on one, that side has on disk what the other has
buffered. The commit succeeds if all that the other has buffered can be committed. -/
theorem Mirrors.refreshed (mirrors : Mirrors old new)
    (separate : Separate old.disk.files old.files)
    (committable : Committable old.disk old.refreshed.files) :
    new.refreshed.commitFault = none ∧ Mirrors old.refreshed new.refreshed.committed := by
  have committable' := mirrors.committable_refreshed separate committable
  have separate' : Separate new.disk.files new.refreshed.files :=
    separate_of_bare (bare_refreshAll _ _ _) (mirrors.separate separate)
  have done : new.refreshed.commitFault = none := commitAll_fault_eq_none_iff.2 committable'
  refine ⟨done, mirrors.registry, mirrors.refresh.2.1, ?_, ?_, ?_, ?_⟩
  · calc new.refreshed.committed.files = new.refreshed.files.map (·.bare) := files_commitAll done
      _ = new.files.map (·.bare) := bare_refreshAll _ _ _
      _ = old.files.map (·.bare) := mirrors.bare
      _ = old.refreshed.files.map (·.bare) := (bare_refreshAll _ _ _).symm
  · exact mirrors.directories.trans (sameDirectories_commitAll _ _ _)
  · exact (refuses_commitAll _ _ _).trans mirrors.device
  · intro location
    calc new.refreshed.committed.disk.files.get? location
        = overlay? new.disk.files new.refreshed.files location :=
          get?_commitAll separate' committable'
      _ = overlay? old.disk.files old.refreshed.files location := by
          rw [mirrors.files_refreshed separate, Holdings.files_refreshed separate,
            overlay?_served separate, overlay?, landing?_congr mirrors.directories,
            mirrors.contents]

/-! ### Runs -/

/-- What happens to a store. -/
inductive Action (W : Type) where
  /-- The providers are given data, or change in another way of their own. -/
  | change (f : W → W)
  | write (force : Bool)
  /-- The oldest alarm goes off. -/
  | fire
  /-- The store is told of an alarm that went off. -/
  | deliver (id : AlarmId)

def Action.run : Action W → StoreM W Alarms Unit
  | .change f => modify fun s => { s with providers := f s.providers }
  | .write force => Store.write force
  | .fire => modify fun s => (s.fireOldest?.map (·.2)).getD s
  | .deliver id => onAlarm id

/-- Takes the actions one after the other, up to the first failure. -/
def runAll : List (Action W) → StoreM W Alarms Unit
  | [] => pure ()
  | action :: rest => do
    action.run
    runAll rest

/-- What becomes of an action if nothing is left to the alarm. -/
def Action.atOnce : Action W → List (Action W)
  | .change f => [.change f]
  | .write _ => [.write true]
  | .fire => []
  | .deliver _ => []

/-- The actions with every write forced and without the alarms. -/
def immediate (actions : List (Action W)) : List (Action W) :=
  actions.flatMap (·.atOnce)

variable {action : Action W} {actions more : List (Action W)} {s t d i : Store W}

theorem runAll_cons : runAll (action :: actions) s = .ok () t ↔
    ∃ mid, action.run s = .ok () mid ∧ runAll actions mid = .ok () t := by
  rw [runAll, run_bind_eq_ok_iff]
  exact ⟨fun ⟨_, mid, h⟩ => ⟨mid, h⟩, fun ⟨mid, h⟩ => ⟨(), mid, h⟩⟩

theorem runAll_singleton : runAll [action] s = .ok () t ↔ action.run s = .ok () t := by
  rw [runAll_cons]
  constructor
  · rintro ⟨mid, first, ⟨⟩⟩
    exact first
  · intro first
    exact ⟨t, first, rfl⟩

theorem runAll_append : runAll (actions ++ more) s = .ok () t ↔
    ∃ mid, runAll actions s = .ok () mid ∧ runAll more mid = .ok () t := by
  induction actions generalizing s with
  | nil =>
    constructor
    · intro run
      exact ⟨s, rfl, run⟩
    · rintro ⟨mid, ⟨⟩, run⟩
      exact run
  | cons action rest ih =>
    rw [List.cons_append, runAll_cons]
    constructor
    · rintro ⟨mid, first, run⟩
      obtain ⟨mid', run, last⟩ := ih.1 run
      exact ⟨mid', runAll_cons.2 ⟨mid, first, run⟩, last⟩
    · rintro ⟨mid', run, last⟩
      obtain ⟨mid, first, run⟩ := runAll_cons.1 run
      exact ⟨mid, first, ih.2 ⟨mid', run, last⟩⟩

/-- What an action that succeeds does to the data. -/
inductive Done : Action W → Holdings W → Holdings W → Prop where
  | change (f : W → W) (h : Holdings W) : Done (.change f) h { h with providers := f h.providers }
  | buffered {h : Holdings W} (done : ∃ isNew, h.refreshResult = .ok isNew) :
      Done (.write false) h h.refreshed
  | forced {h : Holdings W} (done : ∃ isNew, h.refreshResult = .ok isNew)
      (committed : h.refreshed.commitFault = none) : Done (.write true) h h.refreshed.committed
  | fire (h : Holdings W) : Done .fire h h
  | ignored (id : AlarmId) (h : Holdings W) : Done (.deliver id) h h
  | delivered (id : AlarmId) {h : Holdings W} (committed : h.commitFault = none) :
      Done (.deliver id) h h.committed

theorem done_of_run (run : action.run s = .ok () t) : Done action s.holdings t.holdings := by
  cases action with
  | change f =>
    cases run
    exact .change f s.holdings
  | write force =>
    cases force with
    | false =>
      obtain ⟨done, moved⟩ := write_false_eq_ok run
      rw [moved]
      exact .buffered done
    | true =>
      obtain ⟨done, committed, moved⟩ := write_true_eq_ok run
      rw [moved]
      exact .forced done committed
  | fire =>
    cases run
    rw [holdings_fireOldest]
    exact .fire _
  | deliver id =>
    rcases onAlarm_eq_ok run with moved | ⟨committed, moved⟩
    · rw [moved]
      exact .ignored id _
    · rw [moved]
      exact .delivered id committed

theorem Done.keeps (done : Done action h h') : Keeps h h' := by
  cases done with
  | change f => exact ⟨rfl, rfl, rfl, .rfl, rfl⟩
  | buffered => exact keeps_refreshed h
  | forced => exact (keeps_refreshed h).trans (keeps_committed _)
  | fire => exact .refl h
  | ignored => exact .refl h
  | delivered => exact keeps_committed h

/-- Files that are separate stay so. -/
theorem Done.separate (done : Done action h h') (separate : Separate h.disk.files h.files) :
    Separate h'.disk.files h'.files :=
  separate_of_bare done.keeps.files (separate.congr done.keeps.directories)

/-! ### What is buffered can be committed -/

/-- A refresh takes no buffer away. -/
theorem committable_of_refreshed (separate : Separate h.disk.files h.files)
    (later : Committable h.disk h.refreshed.files) : Committable h.disk h.files := by
  intro file hfile buffered
  rw [files_refreshed separate] at later
  refine later (file.served h.servings) (List.mem_map_of_mem hfile) ?_
  simp [StoreFile.served, buffered]

/-- If the buffers after an action can be committed, so can those before it: they are still there,
or they have been committed. -/
theorem Done.committable (done : Done action h h') (separate : Separate h.disk.files h.files)
    (later : Committable h'.disk h'.files) : Committable h.disk h.files := by
  cases done with
  | change f => exact later
  | buffered => exact committable_of_refreshed separate later
  | forced _ committed =>
    exact committable_of_refreshed separate (commitAll_fault_eq_none_iff.1 committed)
  | fire => exact later
  | ignored => exact later
  | delivered _ committed => exact commitAll_fault_eq_none_iff.1 committed

theorem committable_of_runAll (separate : Separate s.disk.files s.files)
    (run : runAll actions s = .ok () t) (last : Committable t.disk t.files) :
    Committable s.disk s.files := by
  induction actions generalizing s with
  | nil =>
    cases run
    exact last
  | cons action rest ih =>
    obtain ⟨mid, first, run⟩ := runAll_cons.1 run
    have done := done_of_run first
    exact done.committable separate (ih (done.separate separate) run)

/-! ### Both runs -/

theorem Mirrors.write (mirrors : Mirrors old i.holdings)
    (separate : Separate old.disk.files old.files) (done : ∃ isNew, old.refreshResult = .ok isNew)
    (committable : Committable old.disk old.refreshed.files) :
    ∃ u, runAll [.write true] i = .ok () u ∧ Mirrors old.refreshed u.holdings := by
  obtain ⟨isNew, result⟩ := done
  obtain ⟨committed, both⟩ := mirrors.refreshed separate committable
  obtain ⟨u, run, moved⟩ := exists_write_true (mirrors.refresh.1.trans result) committed
  exact ⟨u, runAll_singleton.2 run, moved ▸ both⟩

/-- Where one store takes an action, the other one takes it at once. -/
theorem Mirrors.step (mirrors : Mirrors old i.holdings) (done : Done action old h')
    (separate : Separate old.disk.files old.files) (later : Committable h'.disk h'.files) :
    ∃ u, runAll action.atOnce i = .ok () u ∧ Mirrors h' u.holdings := by
  cases done with
  | change f =>
    refine ⟨{ i with providers := f i.providers }, rfl, ?_⟩
    exact { mirrors with providers := congrArg f mirrors.providers }
  | buffered done => exact mirrors.write separate done later
  | forced done committed =>
    have committable := commitAll_fault_eq_none_iff.1 committed
    obtain ⟨u, run, both⟩ := mirrors.write separate done committable
    have separate' := separate_of_bare (keeps_refreshed old).files separate
    exact ⟨u, run, both.committed separate' committable⟩
  | fire => exact ⟨i, rfl, mirrors⟩
  | ignored => exact ⟨i, rfl, mirrors⟩
  | delivered _ committed =>
    exact ⟨i, rfl, mirrors.committed separate (commitAll_fault_eq_none_iff.1 committed)⟩

theorem Mirrors.runAll (mirrors : Mirrors d.holdings i.holdings)
    (separate : Separate d.disk.files d.files) (run : runAll actions d = .ok () t)
    (last : Committable t.disk t.files) :
    ∃ u, Store.runAll (immediate actions) i = .ok () u ∧ Mirrors t.holdings u.holdings := by
  induction actions generalizing d i with
  | nil =>
    cases run
    exact ⟨i, rfl, mirrors⟩
  | cons action rest ih =>
    obtain ⟨d', first, run⟩ := runAll_cons.1 run
    have done := done_of_run first
    have separate' : Separate d'.disk.files d'.files := done.separate separate
    obtain ⟨i', first', mirrors'⟩ :=
      mirrors.step done separate (committable_of_runAll separate' run last)
    obtain ⟨u, run', mirrors''⟩ := ih mirrors' separate' run
    exact ⟨u, runAll_append.2 ⟨i', first', run'⟩, mirrors''⟩

/-- Debounced writing refines immediate writing. If nothing fails in a run that ends with a forced
write, nothing fails either if every write is forced and no alarm goes off. Both runs leave the
providers in the same state and the same on disk, and no buffers. -/
theorem debounced_refines_immediate (separate : Separate s.disk.files s.files)
    (empty : ∀ file ∈ s.files, file.pending = none) (actions : List (Action W))
    (run : runAll (actions ++ [.write true]) s = .ok () d) :
    ∃ i, runAll (immediate actions ++ [.write true]) s = .ok () i ∧
      i.providers = d.providers ∧ i.files = d.files ∧
      (∀ file ∈ d.files, file.pending = none) ∧ Same d.disk.files i.disk.files ∧
      ∀ path, i.disk.read? path = d.disk.read? path := by
  obtain ⟨mid, -, last⟩ := runAll_append.1 run
  have last' : Store.write true mid = .ok () d := runAll_singleton.1 last
  have written : after (Store.write true) mid = d := by rw [after, last']
  have nothing : ∀ file ∈ d.files, file.pending = none := by
    rw [← written]
    exact pending_of_write_true ⟨(), d, last'⟩
  have committable : Committable d.disk d.files :=
    fun file hfile buffered => absurd (nothing file hfile) buffered
  obtain ⟨i, run', mirrors⟩ := (mirrors_self empty).runAll separate run committable
  have same : Same d.disk.files i.disk.files :=
    ⟨mirrors.directories.here, fun location =>
      (mirrors.contents location).trans (overlay?_of_no_pending nothing)⟩
  refine ⟨i, ?_, mirrors.providers, ?_, nothing, same, ?_⟩
  · rwa [immediate, List.flatMap_append] at run'
  · exact mirrors.files.trans (map_bare_of_no_pending nothing)
  · intro path
    have device : i.disk.refuses = d.disk.refuses := mirrors.device
    rw [Disk.read?, Disk.read?, device, same.read]

/-! ### Files at one place -/

/-- A store with a shared file and a user file, and a provider for each. -/
def shareAndUser (user : Path) : Store Memory :=
  let s := Store.new .default (.new ⟨"s.xml"⟩ .sharedGeneral none) Memory.empty (.ofFiles .new)
    (.new false)
  let s := s.setUserFiles [.new user .userGeneral none]
  after (register "U" (some .userGeneral)) (after (register "A" (some .sharedGeneral)) s)

/-- A provider in memory is given data. -/
def setData (name : String) (payload : List Char) : Action Memory :=
  .change (·.update name (·.set (Utf8.encode payload)))

/-- Both providers are given data, one of them a second time, with a buffered write each time. -/
def inTurn (between : List (Action Memory)) : List (Action Memory) :=
  [setData "A" ['1'], .write false, setData "U" ['2'], .write false] ++ between ++
    [setData "A" ['3'], .write false]

/-- The alarm goes off between two of the writes. -/
theorem debounced_refines_immediate_inTurn :
    let s := shareAndUser ⟨"u.xml"⟩
    let actions := inTurn [.fire, .deliver 1]
    ∃ d i, runAll (actions ++ [.write true]) s = .ok () d ∧
      runAll (immediate actions ++ [.write true]) s = .ok () i ∧
      i.providers = d.providers ∧ i.files = d.files ∧ Same d.disk.files i.disk.files := by
  intro s actions
  obtain ⟨⟨⟩, d, run⟩ : Succeeds (runAll (actions ++ [.write true])) s := by decide +kernel
  have separate : Separate s.disk.files s.files := by
    refine List.pairwise_pair.2 ⟨by decide, ?_⟩
    intro location shared user
    have place : some location = some ["s.xml"] := shared.symm.trans (by decide +kernel)
    have place' : some location = some ["u.xml"] := user.symm.trans (by decide +kernel)
    exact absurd (place.symm.trans place') (by decide)
  have empty : ∀ file ∈ s.files, file.pending = none := by decide +kernel
  obtain ⟨i, run', providers, files, -, same, -⟩ :=
    debounced_refines_immediate separate empty actions run
  exact ⟨d, i, run, run', providers, files, same⟩

/-- Two spellings of one place: the document that is committed last stays, and this is the one that
was built last only if each is committed when it is built. -/
theorem debounced_differs_at_one_place :
    let s := shareAndUser ⟨"./s.xml"⟩
    let debounced := runAll (inTurn [] ++ [.write true])
    let forced := runAll (immediate (inTurn []) ++ [.write true])
    (s.files.map (·.path)).Nodup ∧ (s.files.map (·.id)).Nodup ∧
      (∀ file ∈ s.files, file.pending = none) ∧ s.armed = none ∧
      Succeeds debounced s ∧ Succeeds forced s ∧
      ∃ file ∈ s.files,
        file.read? (after debounced s).disk ≠ file.read? (after forced s).disk := by
  intro s debounced forced
  refine ⟨by decide +kernel, by decide +kernel, by decide +kernel, rfl, by decide +kernel,
    by decide +kernel, s.shared, List.mem_cons_self, ?_⟩
  have differ : (s.shared.read? (after debounced s).disk).toOption ≠
      (s.shared.read? (after forced s).disk).toOption := by
    decide +kernel
  exact fun same => differ (congrArg Except.toOption same)

end Store

end SectionStore
