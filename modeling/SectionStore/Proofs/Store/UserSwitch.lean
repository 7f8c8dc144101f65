import SectionStore.Proofs.Running
import SectionStore.Provider.Memory
import SectionStore.Proofs.Store.Settled

/-!
# Switching users

Before user files are replaced, a write that waits for the alarm is committed. Whether anything is
committed is decided by the alarm, not by the buffers: without an armed alarm, an outgoing file goes
with what it has buffered (`switch_commits_outgoing_iff`). Such a state is reached when a forced
write fails and its buffers are retained (`switch_drops_buffer`).
-/

namespace SectionStore.Store

variable {W : Type}

/-- The user files that a switch takes out. -/
def outgoing (s : Store W) : List StoreFile :=
  s.users.getD []

theorem mem_files_of_outgoing {s : Store W} {file : StoreFile} (inside : file ∈ s.outgoing) :
    file ∈ s.files :=
  List.mem_cons_of_mem _ inside

variable [ProviderHost W]

/-- Making way for new files commits what waits for the alarm, and nothing else. -/
theorem disk_of_leaveUserFiles {s s' : Store W} (left : leaveUserFiles s = .ok () s') :
    if s.isWaiting then s.holdings.commitFault = none ∧ s'.disk = s.holdings.committed.disk
    else s'.disk = s.disk := by
  unfold leaveUserFiles at left
  simp only [run_bind, run_get] at left
  have kept (t : Store W) (w : W) : ({ t with providers := w } : Store W).disarm.disk = t.disk :=
    congrArg Holdings.disk (holdings_disarm { t with providers := w })
  cases waiting : s.isWaiting with
  | false =>
    simp only [waiting, Bool.false_eq_true, if_false] at left ⊢
    cases left
    exact kept _ _
  | true =>
    simp only [waiting, if_true, run_bind] at left ⊢
    split at left
    · rename_i t run
      cases left
      obtain ⟨succeeded, moved⟩ := commit_eq_ok run
      exact ⟨succeeded, (kept _ _).trans (congrArg Holdings.disk moved)⟩
    · cases left

/-- Once the old files have been left, the new ones are installed, and the disk stays as it is. -/
theorem after_switchUserFiles {s s' : Store W} (files : List StoreFile)
    (left : leaveUserFiles s = .ok () s') :
    (after (switchUserFiles files) s).users = some files ∧
      (after (switchUserFiles files) s).disk = s'.disk := by
  obtain ⟨-, users, disk⟩ := timedReading_keeps
    (resetAndReadAll s'.registry s'.disk files) (s'.setUserFiles files)
  rw [after, switchUserFiles_of_left files left]
  exact ⟨users, disk⟩

/-- A switch that installs new files has first committed what the outgoing files had buffered
exactly if a write was waiting for the alarm, or if they had nothing buffered. -/
theorem switch_commits_outgoing_iff (s : Store W) (files : List StoreFile)
    (leaves : Succeeds leaveUserFiles s) :
    (after (switchUserFiles files) s).users = some files ∧
      ∃ written, Disk.Writes s.disk written (after (switchUserFiles files) s).disk ∧
        written = (if s.isWaiting then buffers s.files else []) ∧
        ((∀ file ∈ s.outgoing, ∀ content, file.pending = some content →
            (file.path, content) ∈ written) ↔
          s.isWaiting = true ∨ ∀ file ∈ s.outgoing, file.pending = none) := by
  obtain ⟨⟨⟩, s', left⟩ := leaves
  obtain ⟨installed, disk⟩ := after_switchUserFiles files left
  have moved := disk_of_leaveUserFiles left
  refine ⟨installed, _, ?_, rfl, ?_⟩
  · rw [disk]
    split at moved
    · rename_i waiting
      rw [if_pos waiting, moved.2]
      exact writes_commitAll moved.1
    · rename_i idle
      rw [if_neg idle, moved]
      exact .nil _
  · split
    · rename_i waiting
      refine ⟨fun _ => .inl waiting, ?_⟩
      intro _ file hfile content buffered
      exact mem_buffers_iff.2 ⟨file, mem_files_of_outgoing hfile, rfl, buffered⟩
    · rename_i idle
      constructor
      · intro committed
        right
        intro file hfile
        cases buffered : file.pending with
        | none => rfl
        | some content => cases committed file hfile content buffered
      · rintro (waiting | empty) file hfile content buffered
        · exact absurd waiting idle
        · rw [empty file hfile] at buffered
          cases buffered

/-! ### Both kinds of states are reached -/

/-- A store whose user file gets its directory only after the first write of the user's data. -/
def lateDirectory (force : Bool) : Store Memory :=
  let s := Store.new { Config.default with policy := .retain }
    (.new ⟨"s.xml"⟩ .sharedGeneral none) Memory.empty (.ofFiles .new) (.new false)
  let s := s.setUserFiles [.new ⟨"later/C.xml"⟩ .userGeneral none]
  let s := after (register "U" (some .userGeneral)) s
  let s := { s with providers := s.providers.update "U" (·.set (Utf8.encode ['u'])) }
  let s := after (write force) s
  { s with disk := { s.disk with files := s.disk.files.insert ["later"] .directory } }

theorem leaves_lateDirectory (force : Bool) : Succeeds leaveUserFiles (lateDirectory force) := by
  cases force <;> decide +kernel

/-- A buffered write leaves the alarm armed, and the switch commits. -/
theorem switch_commits_lateDirectory :
    ∃ written,
      Disk.Writes (lateDirectory false).disk written
        (after (switchUserFiles []) (lateDirectory false)).disk ∧
      ∀ file ∈ (lateDirectory false).outgoing, ∀ content, file.pending = some content →
        (file.path, content) ∈ written := by
  obtain ⟨-, written, writes, -, committed⟩ :=
    switch_commits_outgoing_iff (lateDirectory false) [] (leaves_lateDirectory false)
  exact ⟨written, writes, committed.2 (.inl (by decide +kernel))⟩

/-- A forced write that fails leaves no alarm armed. The switch drops what it kept, although it
could be committed by then. -/
theorem switch_drops_buffer :
    Succeeds leaveUserFiles (lateDirectory true) ∧
      ∃ file ∈ (lateDirectory true).outgoing, ∃ content, file.pending = some content ∧
        (after (switchUserFiles []) (lateDirectory true)).users = some [] ∧
        (after (switchUserFiles []) (lateDirectory true)).disk.files.read file.path ≠
          .ok content := by
  obtain ⟨⟨⟩, s', left⟩ := leaves_lateDirectory true
  have held : (lateDirectory true).outgoing.any (fun file =>
      file.hasPending && file.path.text = "later/C.xml") = true := by decide +kernel
  have absent : ((after (switchUserFiles []) (lateDirectory true)).disk.files.read
      ⟨"later/C.xml"⟩).toOption = none := by decide +kernel
  obtain ⟨file, hfile, h⟩ := List.any_eq_true.1 held
  simp only [StoreFile.hasPending, Bool.and_eq_true, decide_eq_true_eq] at h
  obtain ⟨buffered, path⟩ := h
  obtain ⟨content, hcontent⟩ := Option.isSome_iff_exists.1 buffered
  refine ⟨⟨(), s', left⟩, file, hfile, content, hcontent, (after_switchUserFiles _ left).1, ?_⟩
  have : file.path = ⟨"later/C.xml"⟩ := by rw [← path]
  rw [this]
  intro read
  rw [read] at absent
  cases absent

end SectionStore.Store
