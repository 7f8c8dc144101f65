import SectionStore.Json

/-!
# Format versions

A document says which version of the format it is written in. Only supported versions are values of
the type, so whoever holds one can read or write the format.
-/

namespace SectionStore

/-- A supported version of the document format. -/
structure DataVersion where
  number : Nat
  supported : 1 ≤ number ∧ number ≤ 3
  deriving DecidableEq, Repr

namespace DataVersion

/-- The first format. -/
def initial : DataVersion :=
  ⟨1, by decide⟩

/-- The format whose documents carry an integrity block behind the version. It is obsolete; readers
skip the block. -/
def integrity : DataVersion :=
  ⟨2, by decide⟩

/-- The format in which providers may encrypt credentials, and the one that is written. -/
def current : DataVersion :=
  ⟨3, by decide⟩

def hasIntegrityBlock (version : DataVersion) : Bool :=
  version = integrity

/-- The version with the given number, if it is supported. -/
def ofInt? (raw : Int) : Option DataVersion :=
  if h : 1 ≤ raw ∧ raw ≤ 3 then some ⟨raw.toNat, by omega⟩ else none

/-- The message for a number that is no supported version. -/
def unsupportedMessage (raw : Int) : String :=
  s!"invalid data version {raw}: supported range is [1, 3]"

def ofJson? : Json → Option DataVersion
  | .int raw => ofInt? raw
  | _ => none

theorem ofInt?_number (version : DataVersion) : ofInt? version.number = some version := by
  have := version.supported
  unfold ofInt?
  rw [dif_pos (by omega)]
  simp

theorem eq_of_ofInt? {raw : Int} {version : DataVersion} (h : ofInt? raw = some version) :
    raw = version.number := by
  unfold ofInt? at h
  split at h
  · obtain rfl := Option.some.inj h
    simp
    omega
  · cases h

end DataVersion

end SectionStore
