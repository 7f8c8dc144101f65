import SectionStore.Json

/-!
# What becomes of a buffer that could not be committed
-/

namespace SectionStore

/-- What happens to a pending buffer when its commit fails. -/
inductive FailedWritePolicy where
  /-- The buffer is dropped, as after a commit that succeeds. -/
  | discard
  /-- The buffer is kept for the next commit. -/
  | retain
  deriving DecidableEq, Repr

namespace FailedWritePolicy

def name : FailedWritePolicy → String
  | discard => "discard"
  | retain => "retain"

/-- The policy with the given name. -/
def ofName? (name : String) : Option FailedWritePolicy :=
  [discard, retain].find? (·.name = name)

def ofJson? (document : Json) : Option FailedWritePolicy :=
  document.alternative?.bind ofName?

theorem ofName?_name (policy : FailedWritePolicy) : ofName? policy.name = some policy := by
  cases policy <;> decide

end FailedWritePolicy

end SectionStore
