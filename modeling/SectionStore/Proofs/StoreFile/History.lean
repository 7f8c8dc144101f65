import SectionStore.Proofs.Store.Commit

/-!
# The history of a store file

A history holds what was buffered for a file and what was committed of it, in the order in which it
happened. `Runs` builds it over any calls of a store file, any policies and any device: between two
calls the device may change in any way that leaves the content of the file alone, so a replacement
may fail at any time.

What is committed and what still waits, one behind the other, are buffered contents in the order in
which they were buffered (`Follows.inOrder`): a content that failed and is retained does not come
back behind a newer one. Main statement: `forward_of_runs`.
-/

namespace SectionStore.StoreFile

open FileSystem

/-- What is put on record of a store file. -/
inductive Mark where
  | buffered (content : ByteArray)
  | committed (content : ByteArray)

/-- The contents that were buffered, the oldest first. -/
def bufferedOf (history : List Mark) : List ByteArray :=
  history.filterMap fun
    | .buffered content => some content
    | .committed _ => none

/-- The contents that were committed, the oldest first. -/
def committedOf (history : List Mark) : List ByteArray :=
  history.filterMap fun
    | .buffered _ => none
    | .committed content => some content

/-- What a commit puts on record: the buffer, if the device carries out its replacement. -/
def committing (file : StoreFile) (disk : Disk) : List Mark :=
  match file.pending with
  | none => []
  | some content =>
    if (disk.replace file.path (.whole content)).1.isOk then [.committed content] else []

/-- A store file comes from a beginning to a state by calls, which leave a history. -/
inductive Runs (file₀ : StoreFile) (disk₀ : Disk) : List Mark → StoreFile → Disk → Prop where
  | start : Runs file₀ disk₀ (file₀.pending.toList.map .buffered) file₀ disk₀
  | buffer {history : List Mark} {file : StoreFile} {disk : Disk} (content : ByteArray)
      (runs : Runs file₀ disk₀ history file disk) :
      Runs file₀ disk₀ (history ++ [.buffered content]) (file.buffer content) disk
  | commit {history : List Mark} {file : StoreFile} {disk : Disk} (policy : FailedWritePolicy)
      (runs : Runs file₀ disk₀ history file disk) :
      Runs file₀ disk₀ (history ++ file.committing disk) (file.commit policy disk).file
        (file.commit policy disk).disk
  | elsewhere {history : List Mark} {file : StoreFile} {disk disk' : Disk}
      (runs : Runs file₀ disk₀ history file disk)
      (same : disk'.files.content? file₀.path = disk.files.content? file₀.path) :
      Runs file₀ disk₀ history file disk'

variable {file₀ file : StoreFile} {disk₀ disk : Disk} {history before after : List Mark} {m x : Mark}
  {content : ByteArray}

@[simp] theorem bufferedOf_concat_buffered (history : List Mark) (content : ByteArray) :
    bufferedOf (history ++ [.buffered content]) = bufferedOf history ++ [content] := by
  simp [bufferedOf]

@[simp] theorem bufferedOf_concat_committed (history : List Mark) (content : ByteArray) :
    bufferedOf (history ++ [.committed content]) = bufferedOf history := by
  simp [bufferedOf]

@[simp] theorem committedOf_concat_buffered (history : List Mark) (content : ByteArray) :
    committedOf (history ++ [.buffered content]) = committedOf history := by
  simp [committedOf]

@[simp] theorem committedOf_concat_committed (history : List Mark) (content : ByteArray) :
    committedOf (history ++ [.committed content]) = committedOf history ++ [content] := by
  simp [committedOf]

/-- A mark of a history with one more is that one, or it was there before. -/
theorem concat_eq_iff :
    history ++ [m] = before ++ x :: after ↔
      (history = before ∧ m = x ∧ after = []) ∨
        ∃ inner, after = inner ++ [m] ∧ history = before ++ x :: inner := by
  constructor
  · intro same
    rcases List.eq_nil_or_concat after with rfl | ⟨inner, last, rfl⟩
    · obtain ⟨rfl, found⟩ := List.append_inj' same rfl
      exact .inl ⟨rfl, List.singleton_inj.1 found, rfl⟩
    · rw [List.concat_eq_append, ← List.cons_append, ← List.append_assoc] at same
      obtain ⟨rfl, found⟩ := List.append_inj' same rfl
      exact .inr ⟨inner, by rw [List.singleton_inj.1 found, List.concat_eq_append], rfl⟩
  · rintro (⟨rfl, rfl, rfl⟩ | ⟨inner, rfl, rfl⟩) <;> simp

/-! ### One commit -/

/-- A commit puts the buffer in place and on record, or it does neither and changes no file. -/
theorem commit_or_not (file : StoreFile) (policy : FailedWritePolicy) (disk : Disk) :
    (∃ content location, file.pending = some content ∧ file.committing disk = [.committed content] ∧
        (file.commit policy disk).result = .ok true ∧ (file.commit policy disk).file = file.bare ∧
        disk.files.target? file.path = some location ∧
        Replaced location content disk.files (file.commit policy disk).disk.files ∧
        (file.commit policy disk).disk.files.content? file.path = some content) ∨
      file.committing disk = [] ∧ (file.commit policy disk).result ≠ .ok true ∧
        ((file.commit policy disk).file = file ∨ (file.commit policy disk).file = file.bare) ∧
        Same disk.files (file.commit policy disk).disk.files := by
  rcases commit_cases file policy disk with
    ⟨bare, same⟩ | ⟨content, waits, moved, ⟨⟨location, allowed⟩, done, result, left⟩ |
      ⟨hindered, ⟨e, result⟩, left⟩⟩
  · refine .inr ⟨by rw [committing, bare], ?_⟩
    rw [same]
    exact ⟨by simp, .inl rfl, rfl, fun _ => rfl⟩
  · refine .inl ⟨content, location, waits, ?_, result, left, allowed.target, ?_, ?_⟩
    · rw [committing, waits]
      simp [done, Except.isOk, Except.toBool]
    · rw [moved]
      exact (Disk.replace_of_allows allowed content).2
    · rw [moved]
      exact Disk.content?_of_replace_ok done
  · obtain ⟨e', failed, same⟩ :=
      Disk.replace_of_not_allows (fun location allowed => hindered ⟨location, allowed⟩) content
    refine .inr ⟨?_, by simp [result], ?_, moved ▸ same⟩
    · rw [committing, waits]
      simp [failed, Except.isOk, Except.toBool]
    · rw [left]
      split
      · exact .inl rfl
      · exact .inr rfl

/-! ### Runs -/

/-- What holds of a store file and its history. -/
structure Follows (file₀ : StoreFile) (disk₀ : Disk) (history : List Mark) (file : StoreFile)
    (disk : Disk) : Prop where
  path : file.path = file₀.path
  /-- What waits comes behind what is committed. -/
  inOrder : (committedOf history ++ file.pending.toList).Sublist (bufferedOf history)
  /-- What waits was buffered last, and nothing has happened since. -/
  newest : ∀ content, file.pending = some content →
    ∃ earlier, history = earlier ++ [.buffered content]
  /-- What is committed had just been buffered. -/
  behind : ∀ before content after, history = before ++ .committed content :: after →
    ∃ earlier, before = earlier ++ [.buffered content]
  holds : disk.files.content? file₀.path =
    (committedOf history).getLast?.or (disk₀.files.content? file₀.path)

theorem follows_start (file₀ : StoreFile) (disk₀ : Disk) :
    Follows file₀ disk₀ (file₀.pending.toList.map .buffered) file₀ disk₀ where
  path := rfl
  inOrder := by cases file₀.pending <;> simp [committedOf, bufferedOf]
  newest := by
    intro content waits
    exact ⟨[], by simp [waits]⟩
  behind := by
    intro before content after split
    have inside : Mark.committed content ∈ file₀.pending.toList.map .buffered := by simp [split]
    simp at inside
  holds := by cases file₀.pending <;> simp [committedOf]

/-- Buffering makes what waits the newest, and commits nothing. -/
theorem Follows.buffer (follows : Follows file₀ disk₀ history file disk) (content : ByteArray) :
    Follows file₀ disk₀ (history ++ [.buffered content]) (file.buffer content) disk where
  path := follows.path
  inOrder := by
    have earlier := (List.sublist_append_left _ _).trans follows.inOrder
    rw [committedOf_concat_buffered, bufferedOf_concat_buffered]
    exact earlier.append (List.Sublist.refl [content])
  newest := by
    intro content' waits
    obtain rfl : content = content' := Option.some.inj waits
    exact ⟨history, rfl⟩
  behind := by
    intro before content' after split
    rcases concat_eq_iff.1 split with ⟨-, other, -⟩ | ⟨inner, -, earlier⟩
    · cases other
    · exact follows.behind before content' inner earlier
  holds := by
    rw [committedOf_concat_buffered]
    exact follows.holds

/-- A commit puts in place what was buffered last, and takes it off the buffer. -/
theorem Follows.commit (follows : Follows file₀ disk₀ history file disk)
    (policy : FailedWritePolicy) :
    Follows file₀ disk₀ (history ++ file.committing disk) (file.commit policy disk).file
      (file.commit policy disk).disk := by
  rcases commit_or_not file policy disk with
    ⟨content, location, waits, recorded, -, left, -, -, now⟩ | ⟨recorded, -, left, same⟩
  · rw [recorded, left]
    exact {
      path := follows.path
      inOrder := by
        have inOrder := follows.inOrder
        rw [waits] at inOrder
        simpa [bare] using inOrder
      newest := by simp [bare]
      behind := by
        intro before content' after split
        rcases concat_eq_iff.1 split with ⟨rfl, found, -⟩ | ⟨inner, -, earlier⟩
        · obtain rfl : content = content' := Mark.committed.inj found
          exact follows.newest content waits
        · exact follows.behind before content' inner earlier
      holds := by
        rw [← follows.path, now]
        simp }
  · rw [recorded, List.append_nil]
    have still := Disk.content?_of_same same file₀.path
    rcases left with left | left
    · rw [left]
      exact { follows with holds := still.trans follows.holds }
    · rw [left]
      exact {
        path := follows.path
        inOrder := by
          have earlier := (List.sublist_append_left _ _).trans follows.inOrder
          simpa [bare] using earlier
        newest := by simp [bare]
        behind := follows.behind
        holds := still.trans follows.holds }

theorem Runs.follows (runs : Runs file₀ disk₀ history file disk) :
    Follows file₀ disk₀ history file disk := by
  induction runs with
  | start => exact follows_start file₀ disk₀
  | buffer content _ ih => exact ih.buffer content
  | commit policy _ ih => exact ih.commit policy
  | elsewhere _ same ih => exact { ih with holds := same.trans ih.holds }

/-- What is committed of a store file is never older than what was committed before. In every history
the committed contents are an in-order subsequence of the buffered ones, each of them committed
directly after it was buffered, so at most once; the file holds the last of them, or what it held in
the beginning; and what waits is newer than all of them. A further commit tells that it has
committed something exactly if it replaces the content of the file by what was buffered last, and
changes no file otherwise. -/
theorem forward_of_runs (runs : Runs file₀ disk₀ history file disk) :
    (committedOf history ++ file.pending.toList).Sublist (bufferedOf history) ∧
      (∀ before content after, history = before ++ .committed content :: after →
        ∃ earlier, before = earlier ++ [.buffered content]) ∧
      disk.files.content? file₀.path =
        (committedOf history).getLast?.or (disk₀.files.content? file₀.path) ∧
      (∀ content, file.pending = some content →
        ∃ earlier, history = earlier ++ [.buffered content]) ∧
      ∀ policy,
        ((file.commit policy disk).result = .ok true ∧ ∃ content location,
          (bufferedOf history).getLast? = some content ∧
          file.committing disk = [.committed content] ∧
          disk.files.target? file₀.path = some location ∧
          Replaced location content disk.files (file.commit policy disk).disk.files) ∨
        ((file.commit policy disk).result ≠ .ok true ∧ file.committing disk = [] ∧
          Same disk.files (file.commit policy disk).disk.files) := by
  have follows := runs.follows
  refine ⟨follows.inOrder, follows.behind, follows.holds, follows.newest, ?_⟩
  intro policy
  rcases commit_or_not file policy disk with
    ⟨content, location, waits, recorded, result, -, target, replaced, -⟩ |
      ⟨recorded, result, -, same⟩
  · obtain ⟨earlier, rfl⟩ := follows.newest content waits
    exact .inl ⟨result, content, location, by simp, recorded, follows.path ▸ target, replaced⟩
  · exact .inr ⟨result, recorded, same⟩

/-- A content that cannot be synced is retained, and replaced by a newer one before the device
permits the commit. -/
theorem forward_of_runs_afterRetaining :
    let file₀ := StoreFile.new ⟨"s.xml"⟩ .sharedGeneral none
    let disk₀ : Disk :=
      ⟨.new, fun _ operation => if operation = .sync then some .other else none, .numbered⟩
    ∃ history file disk, Runs file₀ disk₀ history file disk ∧
      bufferedOf history = [Utf8.encode ['1'], Utf8.encode ['2'], Utf8.encode ['3']] ∧
      committedOf history = [Utf8.encode ['2']] ∧
      disk.files.content? file₀.path = some (Utf8.encode ['2']) ∧
      (committedOf history ++ file.pending.toList).Sublist (bufferedOf history) := by
  intro file₀ disk₀
  have started : Runs file₀ disk₀ [] file₀ disk₀ := .start
  have retained := (started.buffer (Utf8.encode ['1'])).commit .retain
  have retained' := (retained.buffer (Utf8.encode ['2'])).commit .retain
  have permitted : Runs file₀ disk₀ _ _ (.ofFiles .new) := retained'.elsewhere (by decide +kernel)
  have runs := (permitted.commit .discard).buffer (Utf8.encode ['3'])
  obtain ⟨inOrder, -, holds, -⟩ := forward_of_runs runs
  exact ⟨_, _, _, runs, by decide +kernel, by decide +kernel, holds.trans (by decide +kernel), inOrder⟩

end SectionStore.StoreFile
