import SectionStore.FileSystem

/-!
# Temporary files

A temporary file stands in the directory of the file that it is made for. It is made under a name
that is free there. Which one that is and which mode a new file has are the device's affair:
`Temporaries` is any way to make such files, and `Temporaries.numbered` is one that makes them for
their owner only and counts them.
-/

namespace SectionStore

/-- The name of a temporary file: the name of the file that it is made for, with a chosen part. -/
def temporaryName (name chosen : String) : String :=
  "." ++ name ++ "." ++ chosen ++ ".tmp"

/-- A temporary file has another name than the file that it is made for. -/
theorem temporaryName_ne (name chosen : String) : temporaryName name chosen ≠ name := by
  intro same
  have length := congrArg String.length same
  simp only [temporaryName, String.length_append] at length
  have : ".".length = 1 := rfl
  omega

/-- How temporary files are made. -/
structure Temporaries where
  /-- The mode of a new file. -/
  mode : Nat
  /-- The chosen part of a name. -/
  choose (files : FileSystem) (directory : Location) (name : String) : String
  /-- Nothing is there under a name that was chosen. -/
  free (files : FileSystem) (directory : Location) (name : String) :
    files.get? (directory ++ [temporaryName name (choose files directory name)]) = none

namespace Temporaries

/-! ### Numbered names -/

/-- A number with six digits, or more if it is greater. -/
def sixDigits (number : Nat) : String :=
  String.ofList (List.leftpad 6 '0' (Nat.toDigits 10 number))

theorem sixDigits_injective {m n : Nat} (same : sixDigits m = sixDigits n) : m = n := by
  have value (number : Nat) : Nat.ofDigitChars 10 (sixDigits number).toList 0 = number := by
    rw [sixDigits, String.toList_ofList, List.leftpad, Nat.ofDigitChars_append,
      Nat.ofDigitChars_replicate_zero, Nat.mul_zero, Nat.ofDigitChars_ten_toDigits]
  rw [← value m, same, value n]

/-- The least number that makes a name free, if one of the first does. -/
def freeNumber? (files : FileSystem) (directory : Location) (name : String) : Option Nat :=
  (List.range (files.entries.length + 1)).find? fun number =>
    (files.get? (directory ++ [temporaryName name (sixDigits number)])).isNone

theorem mem_entries_of_get? {files : FileSystem} {location : Location} {entry : Entry}
    (present : files.get? location = some entry) : location ∈ files.entries.map (·.1) := by
  obtain ⟨e, found, -⟩ := Option.map_eq_some_iff.1 present
  have := List.find?_some found
  exact List.mem_map.2 ⟨e, List.mem_of_find?_eq_some found, by simpa using this⟩

/-- There are more numbers than entries, so one of them makes a name free. -/
theorem freeNumber?_ne_none (files : FileSystem) (directory : Location) (name : String) :
    freeNumber? files directory name ≠ none := by
  intro exhausted
  let locations := (List.range (files.entries.length + 1)).map fun number =>
    directory ++ [temporaryName name (sixDigits number)]
  have distinct : locations.Nodup := by
    refine List.Pairwise.map _ ?_ List.nodup_range
    intro m n differ same
    exact differ (sixDigits_injective (by simpa [temporaryName] using same))
  have taken : locations ⊆ files.entries.map (·.1) := by
    intro location inside
    obtain ⟨number, among, rfl⟩ := List.mem_map.1 inside
    have := List.find?_eq_none.1 exhausted number among
    obtain ⟨entry, present⟩ := Option.ne_none_iff_exists'.1 (by simpa using this)
    exact mem_entries_of_get? present
  have := List.Nodup.length_le_of_subset distinct taken
  simp only [locations, List.length_map, List.length_range] at this
  omega

/-- Temporary files for their owner only, with the least number that makes their name free. -/
def numbered : Temporaries where
  mode := 0o600
  choose files directory name := sixDigits ((freeNumber? files directory name).getD 0)
  free files directory name := by
    obtain ⟨number, found⟩ :=
      Option.ne_none_iff_exists'.1 (freeNumber?_ne_none files directory name)
    rw [found]
    simpa using List.find?_some found

end Temporaries

end SectionStore
