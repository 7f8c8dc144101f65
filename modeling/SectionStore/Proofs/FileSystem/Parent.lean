import Mathlib.Data.List.TakeWhile
import SectionStore.Proofs.FileSystem.Target

/-!
# The directory that a file is in

A path leads to its file by way of its directory: the pieces before the name of the file lead where
the path `Path.directory` leads (`walk_before_name`), and behind the name nothing leads elsewhere.
So what is found through a path is decided in this directory, by what stands at the name
(`read_congr_of_directory`): a file that appears beside it is not seen.
-/

namespace SectionStore

namespace Path

/-! ### Dividing and putting together -/

theorem split_of_plain {piece : List Char} (plain : '/' ∉ piece) : split piece = [piece] := by
  induction piece with
  | nil => rfl
  | cons c piece ih =>
    obtain ⟨other, plain⟩ := not_or.1 (mt List.mem_cons.2 plain)
    rw [split, if_neg (Ne.symm other), ih plain]

theorem split_append {piece : List Char} (plain : '/' ∉ piece) (rest : List Char) :
    split (piece ++ '/' :: rest) = piece :: split rest := by
  induction piece with
  | nil => rfl
  | cons c piece ih =>
    obtain ⟨other, plain⟩ := not_or.1 (mt List.mem_cons.2 plain)
    rw [List.cons_append, split, if_neg (Ne.symm other), ih plain]

theorem split_intercalate {pieces : List (List Char)} (nonempty : pieces ≠ [])
    (plain : ∀ piece ∈ pieces, '/' ∉ piece) : split (['/'].intercalate pieces) = pieces := by
  induction pieces with
  | nil => exact absurd rfl nonempty
  | cons piece rest ih =>
    obtain ⟨first, others⟩ := List.forall_mem_cons.1 plain
    cases rest with
    | nil =>
      rw [List.intercalate_singleton]
      exact split_of_plain first
    | cons next rest =>
      rw [List.intercalate_cons_cons, List.append_assoc, List.singleton_append, split_append first,
        ih (List.cons_ne_nil _ _) others]

theorem not_mem_of_mem_split {text piece : List Char} (among : piece ∈ split text) :
    '/' ∉ piece := by
  induction text generalizing piece with
  | nil =>
    obtain rfl := List.mem_singleton.1 among
    exact List.not_mem_nil
  | cons c rest ih =>
    rw [split] at among
    split at among
    · rcases List.mem_cons.1 among with rfl | among
      · exact List.not_mem_nil
      · exact ih among
    · rename_i other
      cases parts : split rest with
      | nil =>
        rw [parts] at among
        obtain rfl := List.mem_singleton.1 among
        simpa using Ne.symm other
      | cons first more =>
        rw [parts] at among ih
        rcases List.mem_cons.1 among with rfl | among
        · rw [List.mem_cons, not_or]
          exact ⟨Ne.symm other, ih List.mem_cons_self⟩
        · exact ih (List.mem_cons_of_mem _ among)

/-- A path that is put together from pieces of a path has these pieces. -/
theorem pieces_intercalate {path : Path} {pieces : List String} (nonempty : pieces ≠ [])
    (among : ∀ piece ∈ pieces, piece ∈ path.pieces) :
    (Path.mk ("/".intercalate pieces)).pieces = pieces := by
  have plain : ∀ piece ∈ pieces.map String.toList, '/' ∉ piece := by
    intro piece inside
    obtain ⟨piece, here, rfl⟩ := List.mem_map.1 inside
    obtain ⟨characters, there, rfl⟩ := List.mem_map.1 (among piece here)
    rw [String.toList_ofList]
    exact not_mem_of_mem_split there
  have slash : "/".toList = ['/'] := rfl
  rw [Path.pieces, String.toList_intercalate, slash,
    split_intercalate (by simpa using nonempty) plain, List.map_map]
  simp [Function.comp_def]

/-! ### The pieces behind and before the name -/

/-- None of the pieces leads elsewhere. -/
abbrev Stay (pieces : List String) : Prop :=
  ∀ piece ∈ pieces, leadsElsewhere piece = false

theorem upToLastPart_append (pieces : List String) :
    ∃ behind, Stay behind ∧ pieces = upToLastPart pieces ++ behind := by
  refine ⟨(pieces.reverse.takeWhile fun piece => !leadsElsewhere piece).reverse, ?_, ?_⟩
  · intro piece inside
    have := List.all_eq_true.1 List.all_takeWhile _ (List.mem_reverse.1 inside)
    simpa using this
  · rw [upToLastPart, ← List.reverse_append, List.takeWhile_append_dropWhile, List.reverse_reverse]

theorem getLast?_upToLastPart (pieces : List String) :
    (upToLastPart pieces).getLast? = (pieces.filter leadsElsewhere).getLast? := by
  rw [upToLastPart, List.getLast?_reverse, List.getLast?_filter,
    List.find?_eq_head?_dropWhile_not]

variable {path : Path} {name : String} {before : List String}

/-- The name of a file is the last piece that leads elsewhere. -/
theorem upToLastPart_of_fileName? (named : path.fileName? = some name) :
    ∃ before, upToLastPart path.pieces = before ++ [name] ∧ leadsElsewhere name = true ∧
      name ≠ ".." := by
  obtain ⟨last, forward⟩ := Option.filter_eq_some_iff.1 named
  obtain ⟨before, upTo⟩ := List.getLast?_eq_some_iff.1 ((getLast?_upToLastPart path.pieces).trans last)
  have part := List.mem_filter.1 (List.mem_of_getLast? last)
  exact ⟨before, upTo, part.2, by simpa using forward⟩

/-- The directory of a path has the pieces before the name, apart from those that stay. -/
theorem pieces_directory (upTo : upToLastPart path.pieces = before ++ [name]) :
    ∃ behind, Stay behind ∧ path.directory.pieces = upToLastPart before ++ behind := by
  have inside : ∀ piece ∈ upToLastPart before, piece ∈ path.pieces := by
    intro piece among
    obtain ⟨skipped, -, pieces⟩ := upToLastPart_append before
    obtain ⟨behind, -, whole⟩ := upToLastPart_append path.pieces
    rw [whole, upTo]
    have : piece ∈ before := by
      rw [pieces]
      exact List.mem_append_left _ among
    simp [this]
  unfold directory
  simp only [upTo, List.dropLast_concat]
  split
  · rename_i top
    simp only [Bool.and_eq_true, List.isEmpty_iff] at top
    rw [top.1]
    exact ⟨["", ""], by decide, rfl⟩
  · by_cases empty : upToLastPart before = []
    · rw [empty]
      exact ⟨[""], by decide, rfl⟩
    · exact ⟨[], List.forall_mem_nil _, by rw [pieces_intercalate empty inside, List.append_nil]⟩

end Path

namespace FileSystem

variable {fs old new : FileSystem} {location directory : Location} {piece name : String}
  {pieces behind more : List String} {path : Path}

/-! ### Walks -/

theorem follow_of_stay (stays : Path.leadsElsewhere piece = false) :
    follow location piece = .ok location := by
  have : piece = "" ∨ piece = "." := by
    simpa [Path.leadsElsewhere, Decidable.or_iff_not_imp_left] using stays
  rw [follow, if_pos this]

theorem follow_name (part : Path.leadsElsewhere name = true) (forward : name ≠ "..") :
    follow location name =
      if maxNameSize < name.utf8ByteSize then .error .nameTooLong else .ok (location ++ [name]) := by
  have : ¬ (name = "" ∨ name = ".") := by
    simpa [Path.leadsElsewhere] using part
  rw [follow, if_neg this, if_neg forward]

/-- Behind a walk that ends at a directory, the rest of a longer walk begins there. -/
theorem walk_append_of_directory (first : fs.walk location pieces = .ok (directory, .directory)) :
    fs.walk location (pieces ++ more) = fs.walk directory more := by
  induction pieces generalizing location with
  | nil =>
    obtain ⟨rfl, -⟩ := walk_nil.1 first
    rfl
  | cons piece rest ih =>
    obtain ⟨here, next, step, further⟩ := walk_cons.1 first
    rw [List.cons_append, walk_cons_of_directory here, step]
    exact ih further

/-- Pieces that stay may be left out behind a directory. -/
theorem walk_append_stay (stay : Path.Stay behind) :
    fs.walk location (pieces ++ behind) = .ok (directory, .directory) ↔
      fs.walk location pieces = .ok (directory, .directory) := by
  induction pieces generalizing location with
  | nil =>
    induction behind with
    | nil => rfl
    | cons piece behind ih =>
      obtain ⟨stays, stay⟩ := List.forall_mem_cons.1 stay
      rw [List.nil_append, walk_cons, follow_of_stay stays]
      constructor
      · rintro ⟨-, next, step, further⟩
        obtain rfl := Except.ok.inj step
        exact (ih stay).1 further
      · intro ended
        obtain ⟨rfl, here⟩ := walk_nil.1 ended
        exact ⟨here, _, rfl, (ih stay).2 ended⟩
  | cons piece rest ih => simp only [List.cons_append, walk_cons, ih]

/-- The pieces before the name of a file lead where the path of its directory leads. -/
theorem walk_before_name {before : List String} (upTo : Path.upToLastPart path.pieces = before ++ [name])
    (found : fs.walkToDirectory (fs.start path) path.directory.pieces = .ok directory) :
    fs.walk (fs.start path) before = .ok (directory, .directory) := by
  obtain ⟨behind, stay, pieces⟩ := Path.pieces_directory upTo
  obtain ⟨skipped, stay', whole⟩ := Path.upToLastPart_append before
  rw [walkToDirectory_eq_ok, pieces, walk_append_stay stay] at found
  rw [whole, walk_append_stay stay']
  exact found

/-- Behind the name of a file, only what stands at the name is looked at. -/
theorem walk_stay_congr (same : new.get? location = old.get? location) (stay : Path.Stay behind) :
    new.walk location behind = old.walk location behind := by
  induction behind with
  | nil => rw [walk, walk, same]
  | cons piece behind ih =>
    obtain ⟨stays, stay⟩ := List.forall_mem_cons.1 stay
    by_cases here : old.get? location = some .directory
    · rw [walk_cons_of_directory here, walk_cons_of_directory (same.trans here),
        follow_of_stay stays]
      exact ih stay
    · rw [walk, walk, same]
      split
      · rfl
      · rfl
      · contradiction

/-- What is found through a path is decided by the directories and by what stands at the name of its
file. -/
theorem read_congr_of_directory (named : path.fileName? = some name)
    (found : old.walkToDirectory (old.start path) path.directory.pieces = .ok directory)
    (directories : SameDirectories old new)
    (same : new.get? (directory ++ [name]) = old.get? (directory ++ [name])) :
    new.read path = old.read path := by
  obtain ⟨before, upTo, part, forward⟩ := Path.upToLastPart_of_fileName? named
  obtain ⟨behind, stay, whole⟩ := Path.upToLastPart_append path.pieces
  have first := walk_before_name upTo found
  have first' := walk_directory_congr directories first
  have here := get?_of_walk first
  have here' := get?_of_walk first'
  have walked : new.walk (new.start path) path.pieces = old.walk (old.start path) path.pieces := by
    rw [whole, upTo, List.append_assoc, List.singleton_append, start_congr directories,
      walk_append_of_directory first, walk_append_of_directory first', walk_cons_of_directory here,
      walk_cons_of_directory here', follow_name part forward]
    by_cases long : maxNameSize < name.utf8ByteSize
    · simp only [if_pos long]
    · simp only [if_neg long]
      exact walk_stay_congr same stay
  rw [read, read, locate, locate, walked]

end FileSystem

end SectionStore
