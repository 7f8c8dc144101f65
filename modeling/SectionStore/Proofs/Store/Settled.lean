import SectionStore.Proofs.Store.Holdings

/-!
# Built documents are not lost

Every document that was built for a file is its newest content until a newer one is built
(`Settled`): it is in the buffer or on disk. Refreshing and committing keep this as long as no
commit drops a buffer, and so do writes and alarms, whether they succeed or fail. What they never
change are the files themselves and the directories (`Keeps`), so files that are separate stay
separate.
-/

namespace SectionStore

open FileSystem

namespace Holdings

variable {W : Type}

/-- Both holdings have the same providers registered, and the same files at the same places. -/
structure Keeps (old new : Holdings W) : Prop where
  policy : new.policy = old.policy
  registry : new.registry = old.registry
  files : new.files.map (·.bare) = old.files.map (·.bare)
  directories : SameDirectories old.disk.files new.disk.files
  device : new.disk.refuses = old.disk.refuses

theorem Keeps.refl (h : Holdings W) : Keeps h h :=
  ⟨rfl, rfl, rfl, .rfl, rfl⟩

theorem Keeps.trans {a b c : Holdings W} (first : Keeps a b) (second : Keeps b c) : Keeps a c :=
  ⟨second.policy.trans first.policy, second.registry.trans first.registry,
    second.files.trans first.files, first.directories.trans second.directories,
    second.device.trans first.device⟩

/-- Each file is one of those before. -/
theorem Keeps.exists_file {old new : Holdings W} (keeps : Keeps old new) {file : StoreFile}
    (inside : file ∈ new.files) : ∃ other ∈ old.files, other.bare = file.bare := by
  have : file.bare ∈ old.files.map (·.bare) :=
    keeps.files ▸ List.mem_map_of_mem inside
  obtain ⟨other, hother, same⟩ := List.mem_map.1 this
  exact ⟨other, hother, same⟩

/-- The files have the ids that they had. -/
theorem Keeps.pairwise_ids {old new : Holdings W} (keeps : Keeps old new)
    (ids : old.files.Pairwise fun file other => file.id ≠ other.id) :
    new.files.Pairwise fun file other => file.id ≠ other.id := by
  have same : new.files.map (·.id) = old.files.map (·.id) := by
    have := congrArg (List.map (·.id)) keeps.files
    rw [List.map_map, List.map_map] at this
    exact this
  have ids' : (old.files.map (·.id)).Pairwise (· ≠ ·) := List.pairwise_map.2 ids
  exact List.pairwise_map.1 (same ▸ ids')

theorem keeps_committed (h : Holdings W) : Keeps h h.committed :=
  ⟨rfl, rfl, Store.bare_commitAll _ _ _, Store.sameDirectories_commitAll _ _ _,
    Store.refuses_commitAll _ _ _⟩

/-- The files have different places, and a commit drops none of their buffers. -/
structure Safe (h : Holdings W) : Prop where
  separate : Store.Separate h.disk.files h.files
  kept : ∀ file ∈ h.files, file.Safe h.policy h.disk

theorem separate_of_bare {fs : FileSystem} {files others : List StoreFile}
    (same : others.map (·.bare) = files.map (·.bare)) (separate : Store.Separate fs files) :
    Store.Separate fs others := by
  have paths : others.map (·.path) = files.map (·.path) := by
    have := congrArg (List.map (·.path)) same
    rw [List.map_map, List.map_map] at this
    exact this
  have : (files.map (·.path)).Pairwise fun path other => path ≠ other ∧ fs.Apart path other :=
    List.pairwise_map.2 separate
  rw [← paths] at this
  exact List.pairwise_map.1 this

theorem Safe.of_keeps {old new : Holdings W} (keeps : Keeps old new) (safe : Safe old) :
    Safe new := by
  have separate := separate_of_bare keeps.files (safe.separate.congr keeps.directories)
  refine ⟨separate, ?_⟩
  intro file hfile
  obtain ⟨other, hother, same⟩ := keeps.exists_file hfile
  rw [keeps.policy]
  exact (safe.kept other hother).congr (StoreFile.path_eq_of_bare same.symm) keeps.directories
    keeps.device

/-- The last document that was built for a file is its newest content. -/
def Settled (log : List Serving) (h : Holdings W) : Prop :=
  ∀ file ∈ h.files, ∀ document, Serving.lastDocument? file.path log = some document →
    file.newest? h.disk = some document

theorem settled_nil (h : Holdings W) : Settled [] h := by
  intro file _ document built
  cases built

theorem Settled.committed {log : List Serving} {h : Holdings W} (safe : Safe h)
    (settled : Settled log h) : Settled log h.committed := by
  intro file hfile document built
  obtain ⟨other, hother, same, newest⟩ := Store.newest?_commitAll safe.separate safe.kept hfile
  rw [StoreFile.path_eq_of_bare same] at built
  exact newest.trans (settled other hother document built)

variable [ProviderHost W]

theorem keeps_refreshed (h : Holdings W) : Keeps h h.refreshed :=
  ⟨rfl, rfl, Store.bare_refreshAll _ _ _, .rfl, rfl⟩

theorem files_refreshed {h : Holdings W} (separate : Store.Separate h.disk.files h.files) :
    h.refreshed.files = h.files.map (·.served h.servings) :=
  Store.files_refreshAll (separate.imp fun apart => apart.1)

theorem Settled.refreshed {log : List Serving} {h : Holdings W} (safe : Safe h)
    (settled : Settled log h) : Settled (log ++ h.servings) h.refreshed := by
  intro file hfile document built
  rw [files_refreshed safe.separate] at hfile
  obtain ⟨other, hother, rfl⟩ := List.mem_map.1 hfile
  rw [StoreFile.path_served, Serving.lastDocument?_append] at built
  cases new : Serving.lastDocument? other.path h.servings with
  | some document' =>
    rw [new] at built
    simp only [StoreFile.newest?, StoreFile.served, new]
    exact built
  | none =>
    rw [new] at built
    simp only [StoreFile.newest?, StoreFile.served, new]
    exact settled other hother document built

end Holdings

namespace Store

open Holdings

variable {W A : Type} [AlarmScheduler A] {log : List Serving} {s : Store W A}

theorem keeps_onAlarm (id : AlarmId) (s : Store W A) :
    Keeps s.holdings (after (onAlarm id) s).holdings := by
  rcases holdings_onAlarm id s with h | h <;> rw [h]
  · exact .refl _
  · exact keeps_committed _

theorem settled_onAlarm (id : AlarmId) (safe : Safe s.holdings) (settled : Settled log s.holdings) :
    Settled log (after (onAlarm id) s).holdings := by
  rcases holdings_onAlarm id s with h | h <;> rw [h]
  · exact settled
  · exact settled.committed safe

variable [ProviderHost W]

theorem keeps_leaveUserFiles (s : Store W A) :
    Keeps s.holdings (after leaveUserFiles s).holdings := by
  obtain ⟨t, origin, ends⟩ := after_leaveUserFiles_cases s
  have kept : Keeps s.holdings t.holdings := by
    rcases origin with ⟨-, rfl⟩ | ⟨-, rfl⟩
    · exact .refl _
    · rw [holdings_commit]
      exact keeps_committed _
  rcases ends with same | ⟨providers, same⟩ <;> rw [same]
  · exact kept
  · rw [holdings_disarm]
    exact kept.trans ⟨rfl, rfl, rfl, .rfl, rfl⟩

/-- A write refreshes, and may commit after that. -/
theorem holdings_write (force : Bool) (s : Store W A) :
    (after (write force) s).holdings = s.holdings.refreshed ∨
      (after (write force) s).holdings = s.holdings.refreshed.committed := by
  cases force with
  | false => exact .inl (holdings_write_false s)
  | true =>
    cases result : s.holdings.refreshResult with
    | error e => exact .inl (write_of_refresh_error true result).2
    | ok isNew => exact .inr (write_true_of_refresh_ok result).1

theorem keeps_write (force : Bool) (s : Store W A) :
    Keeps s.holdings (after (write force) s).holdings := by
  rcases holdings_write force s with h | h <;> rw [h]
  · exact keeps_refreshed _
  · exact (keeps_refreshed _).trans (keeps_committed _)

theorem settled_write (force : Bool) (safe : Safe s.holdings) (settled : Settled log s.holdings) :
    Settled (log ++ s.holdings.servings) (after (write force) s).holdings := by
  have refreshed := settled.refreshed safe
  rcases holdings_write force s with h | h <;> rw [h]
  · exact refreshed
  · exact refreshed.committed (safe.of_keeps (keeps_refreshed _))

/-- After a forced write that succeeds nothing is buffered. -/
theorem pending_of_write_true (done : Succeeds (write true) s) :
    ∀ file ∈ (after (write true) s).files, file.pending = none := by
  cases result : s.holdings.refreshResult with
  | error e => exact absurd done (write_of_refresh_error true result).1
  | ok isNew =>
    obtain ⟨moved, succeeds⟩ := write_true_of_refresh_ok result
    have files : (after (write true) s).files = s.holdings.refreshed.committed.files :=
      congrArg Holdings.files moved
    rw [files]
    exact pending_commitAll (succeeds.1 done)

end Store

end SectionStore
