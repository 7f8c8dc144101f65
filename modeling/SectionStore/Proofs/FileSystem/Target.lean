import SectionStore.FileSystem

/-!
# Where a path leads to

`FileSystem.target?` is the location at which the file of a path is kept, whether or not there is
one, and `content?` the content found there; what is read through the path is this content
(`read_of_content?`). Finding a target looks at directories only, so it finds the same one as long
as the directories stay (`target?_congr`): committing a file changes no other file's target.
-/

namespace SectionStore.FileSystem

/-- The location at which a file is put under a path, if one can be. -/
def target? (fs : FileSystem) (path : Path) : Option Location :=
  match fs.place path with
  | .error _ => none
  | .ok place => if place.isFixed || place.slash then none else some place.location

/-- The content of the file of a path. -/
def content? (fs : FileSystem) (path : Path) : Option ByteArray :=
  match (fs.target? path).bind fs.get? with
  | some (.file content _) => some content
  | _ => none

/-- Two file systems with the same directories. -/
structure SameDirectories (old new : FileSystem) : Prop where
  here : new.here = old.here
  directory : ∀ l, new.get? l = some .directory ↔ old.get? l = some .directory

theorem SameDirectories.rfl {fs : FileSystem} : SameDirectories fs fs :=
  ⟨Eq.refl _, fun _ => Iff.rfl⟩

theorem SameDirectories.symm {old new : FileSystem} (h : SameDirectories old new) :
    SameDirectories new old :=
  ⟨h.here.symm, fun l => (h.directory l).symm⟩

theorem SameDirectories.trans {old mid new : FileSystem} (h : SameDirectories old mid)
    (h' : SameDirectories mid new) : SameDirectories old new :=
  ⟨h'.here.trans h.here, fun l => (h'.directory l).trans (h.directory l)⟩

/-! ### Following pieces -/

/-- Where one piece leads from a directory. -/
def follow (location : Location) (piece : String) : Except FileFault Location :=
  if piece = "" ∨ piece = "." then .ok location
  else if piece = ".." then .ok location.dropLast
  else if maxNameSize < piece.utf8ByteSize then .error .nameTooLong
  else .ok (location ++ [piece])

theorem walk_nil {fs : FileSystem} {location : Location} {found : Location × Entry} :
    fs.walk location [] = .ok found ↔
      found.1 = location ∧ fs.get? location = some found.2 := by
  rw [walk]
  cases here : fs.get? location with
  | none => simp
  | some entry =>
    simp only [Except.ok.injEq, Prod.ext_iff, Option.some.injEq]
    rw [@eq_comm _ location]

/-- In a directory a walk goes where its first piece leads. -/
theorem walk_cons_of_directory {fs : FileSystem} {location : Location} {piece : String}
    {rest : List String} (here : fs.get? location = some .directory) :
    fs.walk location (piece :: rest) = match follow location piece with
      | .error fault => .error fault
      | .ok next => fs.walk next rest := by
  rw [walk, here]
  by_cases stays : piece = "" ∨ piece = "."
  · simp [follow, stays]
  by_cases back : piece = ".."
  · simp [follow, back]
  by_cases long : maxNameSize < piece.utf8ByteSize
  · simp [follow, stays, back, long]
  · simp [follow, stays, back, long]

/-- A walk goes on from a directory, to where its first piece leads. -/
theorem walk_cons {fs : FileSystem} {location : Location} {piece : String} {rest : List String}
    {found : Location × Entry} :
    fs.walk location (piece :: rest) = .ok found ↔
      fs.get? location = some .directory ∧
        ∃ next, follow location piece = .ok next ∧ fs.walk next rest = .ok found := by
  cases here : fs.get? location with
  | none => simp [walk, here]
  | some entry =>
    cases entry with
    | file content mode => simp [walk, here]
    | directory =>
      rw [walk_cons_of_directory here]
      cases follow location piece with
      | error fault => simp
      | ok next => simp

/-- A walk that ends at a directory takes the same way if the directories are the same. -/
theorem walk_directory_congr {old new : FileSystem} (same : SameDirectories old new)
    {location found : Location} {pieces : List String}
    (h : old.walk location pieces = .ok (found, .directory)) :
    new.walk location pieces = .ok (found, .directory) := by
  induction pieces generalizing location with
  | nil =>
    obtain ⟨e, here⟩ := walk_nil.1 h
    exact walk_nil.2 ⟨e, (same.directory _).2 here⟩
  | cons piece rest ih =>
    obtain ⟨here, next, step, further⟩ := walk_cons.1 h
    exact walk_cons.2 ⟨(same.directory _).2 here, next, step, ih further⟩

/-- Walks with a directory between them are one walk. -/
theorem walk_append {fs : FileSystem} {location middle : Location} {pieces more : List String}
    {found : Location × Entry} (first : fs.walk location pieces = .ok (middle, .directory))
    (second : fs.walk middle more = .ok found) :
    fs.walk location (pieces ++ more) = .ok found := by
  induction pieces generalizing location with
  | nil =>
    obtain ⟨rfl, -⟩ := walk_nil.1 first
    exact second
  | cons piece rest ih =>
    obtain ⟨here, next, step, further⟩ := walk_cons.1 first
    exact walk_cons.2 ⟨here, next, step, ih further⟩

/-- A walk ends where something is. -/
theorem get?_of_walk {fs : FileSystem} {location : Location} {pieces : List String}
    {found : Location × Entry} (h : fs.walk location pieces = .ok found) :
    fs.get? found.1 = some found.2 := by
  induction pieces generalizing location with
  | nil =>
    obtain ⟨e, here⟩ := walk_nil.1 h
    rw [e, here]
  | cons piece rest ih =>
    obtain ⟨-, next, -, further⟩ := walk_cons.1 h
    exact ih further

theorem walkToDirectory_eq_ok {fs : FileSystem} {location found : Location} {pieces : List String} :
    fs.walkToDirectory location pieces = .ok found ↔
      fs.walk location pieces = .ok (found, .directory) := by
  unfold walkToDirectory
  split <;> simp_all

theorem walkToDirectory_congr {old new : FileSystem} (same : SameDirectories old new)
    {location found : Location} {pieces : List String}
    (h : old.walkToDirectory location pieces = .ok found) :
    new.walkToDirectory location pieces = .ok found :=
  walkToDirectory_eq_ok.2 (walk_directory_congr same (walkToDirectory_eq_ok.1 h))

/-! ### Targets -/

/-- The pieces before the slashes at the end. -/
abbrev named (pieces : List String) : List String :=
  (pieces.reverse.dropWhile (· = "")).reverse

theorem named_eq_of_length {pieces : List String} (same : (named pieces).length = pieces.length) :
    named pieces = pieces := by
  have suffix : pieces.reverse.dropWhile (· = "") <:+ pieces.reverse := List.dropWhile_suffix _
  have whole := suffix.eq_of_length (by simpa using same)
  rw [named, whole, List.reverse_reverse]

theorem named_eq_of_getLast? {pieces : List String} {name : String}
    (last : pieces.getLast? = some name) (nonempty : name ≠ "") : named pieces = pieces := by
  obtain ⟨before, rfl⟩ := List.getLast?_eq_some_iff.1 last
  simp [named, nonempty]

theorem place_of_check {fs : FileSystem} {path : Path} (checked : check path = .ok ()) :
    fs.place path =
      match (named path.pieces).getLast? with
      | none => .ok ⟨[], "", true⟩
      | some name =>
        match fs.walkToDirectory (fs.start path) (named path.pieces).dropLast with
        | .error fault => .error fault
        | .ok directory =>
          if maxNameSize < name.utf8ByteSize then .error .nameTooLong
          else .ok ⟨directory, name, (named path.pieces).length ≠ path.pieces.length⟩ := by
  unfold FileSystem.place named
  simp only [checked, Bind.bind, Except.bind, Pure.pure, Except.pure]
  cases (path.pieces.reverse.dropWhile (· = "")).reverse.getLast? with
  | none => rfl
  | some name =>
    simp only
    cases fs.walkToDirectory _ _ <;> rfl

theorem check_of_place {fs : FileSystem} {path : Path} {place : Place}
    (h : fs.place path = .ok place) : check path = .ok () := by
  unfold FileSystem.place at h
  cases checked : check path with
  | error fault => simp [checked, Bind.bind, Except.bind] at h
  | ok _ => rfl

/-- A path has a target if all but its last piece lead to a directory and the last is a name. -/
theorem target?_eq_some {fs : FileSystem} {path : Path} {location : Location} :
    fs.target? path = some location ↔
      ∃ directory name, check path = .ok () ∧ path.pieces.getLast? = some name ∧
        (name ≠ "" ∧ name ≠ "." ∧ name ≠ "..") ∧ name.utf8ByteSize ≤ maxNameSize ∧
        fs.walkToDirectory (fs.start path) path.pieces.dropLast = .ok directory ∧
        location = directory ++ [name] := by
  constructor
  · intro h
    unfold target? at h
    split at h
    · cases h
    rename_i place found
    split at h
    · cases h
    rename_i free
    obtain rfl := Option.some.inj h
    have checked := check_of_place found
    rw [place_of_check checked] at found
    split at found
    · cases found
      simp [Place.isFixed] at free
    rename_i name last
    split at found
    · cases found
    rename_i directory walked
    split at found
    · cases found
    rename_i short
    cases found
    simp only [Place.isFixed, Bool.or_eq_true, decide_eq_true_eq, not_or, Decidable.not_not] at free
    obtain ⟨⟨⟨nonempty, dot⟩, dots⟩, whole⟩ := free
    rw [named_eq_of_length whole] at last walked
    exact ⟨directory, name, checked, last, ⟨nonempty, dot, dots⟩, by omega, walked, rfl⟩
  · rintro ⟨directory, name, checked, last, ⟨nonempty, dot, dots⟩, short, walked, rfl⟩
    have whole := named_eq_of_getLast? last nonempty
    have found : fs.place path = .ok ⟨directory, name, false⟩ := by
      rw [place_of_check checked, whole, last]
      simp only [walked, if_neg (show ¬ maxNameSize < name.utf8ByteSize by omega)]
      simp
    rw [target?, found]
    simp [Place.isFixed, nonempty, dot, dots, Place.location]

theorem start_congr {old new : FileSystem} (same : SameDirectories old new) (path : Path) :
    new.start path = old.start path := by
  rw [start, start, same.here]

/-- The target of a path depends on the directories only. -/
theorem target?_congr {old new : FileSystem} (same : SameDirectories old new) (path : Path) :
    new.target? path = old.target? path := by
  have keep {a b : FileSystem} (same : SameDirectories a b) {l : Location}
      (h : a.target? path = some l) : b.target? path = some l := by
    obtain ⟨directory, name, checked, last, free, short, walked, rfl⟩ := target?_eq_some.1 h
    exact target?_eq_some.2 ⟨directory, name, checked, last, free, short,
      start_congr same path ▸ walkToDirectory_congr same walked, rfl⟩
  apply Option.ext
  intro l
  exact ⟨keep same.symm, keep same⟩

theorem place_of_target? {fs : FileSystem} {path : Path} {location : Location}
    (h : fs.target? path = some location) :
    ∃ place, fs.place path = .ok place ∧ place.isFixed = false ∧ place.slash = false ∧
      place.location = location := by
  unfold target? at h
  split at h
  · cases h
  · rename_i place found
    split at h
    · cases h
    · rename_i free
      simp only [Bool.or_eq_true, not_or, Bool.not_eq_true] at free
      exact ⟨place, found, free.1, free.2, Option.some.inj h⟩

theorem target?_eq_place {fs : FileSystem} {path : Path} {place : Place}
    (found : fs.place path = .ok place) (free : place.isFixed = false)
    (ended : place.slash = false) :
    fs.target? path = some place.location := by
  simp [target?, found, free, ended]

/-! ### Contents -/

theorem content?_of_target? {fs : FileSystem} {path : Path} {location : Location}
    (target : fs.target? path = some location) :
    fs.content? path =
      match fs.get? location with
      | some (.file content _) => some content
      | _ => none := by
  rw [content?, target, Option.bind_some]

/-- What is found at the target of a path is what is read through the path. -/
theorem read_of_content? {fs : FileSystem} {path : Path} {content : ByteArray}
    (h : fs.content? path = some content) : fs.read path = .ok content := by
  unfold content? at h
  split at h
  · rename_i content' mode found
    cases h
    obtain ⟨location, target, here⟩ := Option.bind_eq_some_iff.1 found
    obtain ⟨directory, name, checked, last, ⟨nonempty, dot, dots⟩, short, walked, rfl⟩ :=
      target?_eq_some.1 target
    obtain ⟨before, split⟩ := List.getLast?_eq_some_iff.1 last
    have step : follow directory name = .ok (directory ++ [name]) := by
      rw [follow, if_neg (by simp [nonempty, dot]), if_neg dots, if_neg (by omega)]
    have first := walkToDirectory_eq_ok.1 walked
    have whole : fs.walk (fs.start path) path.pieces =
        .ok (directory ++ [name], .file content mode) := by
      rw [split, List.dropLast_concat] at first
      rw [split]
      exact walk_append first
        (walk_cons.2 ⟨get?_of_walk first, _, step, walk_nil.2 ⟨rfl, here⟩⟩)
    have found : fs.locate path = .ok (directory ++ [name], .file content mode) := by
      rw [locate, checked]
      exact whole
    rw [read, found]
  · cases h

/-! ### Contents that are read -/

/-- Every directory is in a directory; the one at the top counts as its own. -/
def Nested (fs : FileSystem) : Prop :=
  ∀ l : Location, fs.get? l = some .directory → fs.get? l.dropLast = some .directory

theorem Nested.congr {old new : FileSystem} (same : SameDirectories old new) (nested : Nested old) :
    Nested new :=
  fun l here => (same.directory _).2 (nested l ((same.directory l).1 here))

/-- A walk ends where the last piece leads from a directory. -/
theorem walk_concat {fs : FileSystem} {location : Location} {pieces : List String} {piece : String}
    {found : Location × Entry} (h : fs.walk location (pieces ++ [piece]) = .ok found) :
    ∃ directory, fs.walk location pieces = .ok (directory, .directory) ∧
      follow directory piece = .ok found.1 := by
  induction pieces generalizing location with
  | nil =>
    obtain ⟨here, next, step, further⟩ := walk_cons.1 h
    obtain ⟨same, -⟩ := walk_nil.1 further
    exact ⟨location, walk_nil.2 ⟨rfl, here⟩, same ▸ step⟩
  | cons first rest ih =>
    obtain ⟨here, next, step, further⟩ := walk_cons.1 h
    obtain ⟨directory, walked, last⟩ := ih further
    exact ⟨directory, walk_cons.2 ⟨here, next, step, walked⟩, last⟩

theorem pieces_ne_nil (path : Path) : path.pieces ≠ [] := by
  intro none
  have nothing : Path.split path.text.toList = [] := List.map_eq_nil_iff.1 none
  cases text : path.text.toList with
  | nil =>
    rw [text] at nothing
    cases nothing
  | cons c rest =>
    rw [text, Path.split] at nothing
    split at nothing
    · cases nothing
    · split at nothing
      · cases nothing
      · cases nothing

/-- What is read through a path is what is found at its target. -/
theorem content?_of_read {fs : FileSystem} {path : Path} {content : ByteArray} (nested : fs.Nested)
    (h : fs.read path = .ok content) : fs.content? path = some content := by
  unfold read at h
  split at h
  · cases h
  · cases h
  rename_i location content' mode located
  cases h
  obtain ⟨checked, walked⟩ : check path = .ok () ∧
      fs.walk (fs.start path) path.pieces = .ok (location, .file content mode) := by
    unfold locate at located
    cases checked : check path with
    | error fault =>
      rw [checked] at located
      cases located
    | ok _ =>
      rw [checked] at located
      exact ⟨rfl, located⟩
  obtain ⟨name, last⟩ : ∃ name, path.pieces.getLast? = some name :=
    Option.isSome_iff_exists.1 (List.getLast?_isSome.2 (pieces_ne_nil path))
  have whole : path.pieces.dropLast ++ [name] = path.pieces := by
    obtain ⟨before, split⟩ := List.getLast?_eq_some_iff.1 last
    rw [split, List.dropLast_concat]
  rw [← whole] at walked
  obtain ⟨directory, first, step⟩ := walk_concat walked
  have outside : fs.get? directory = some .directory := get?_of_walk first
  have here : fs.get? location = some (.file content mode) := get?_of_walk walked
  unfold follow at step
  split at step
  · cases step
    rw [outside] at here
    cases here
  rename_i free
  split at step
  · cases step
    rw [nested directory outside] at here
    cases here
  rename_i forward
  split at step
  · cases step
  rename_i short
  obtain rfl : directory ++ [name] = location := Except.ok.inj step
  have target : fs.target? path = some (directory ++ [name]) :=
    target?_eq_some.2 ⟨directory, name, checked, last, ⟨fun h => free (.inl h),
      fun h => free (.inr h), forward⟩, by omega, walkToDirectory_eq_ok.2 first, rfl⟩
  rw [content?_of_target? target, here]

end SectionStore.FileSystem
