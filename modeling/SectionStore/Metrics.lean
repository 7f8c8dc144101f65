import SectionStore.Clock

/-!
# Time samples

How long the writes and reads of a store took, in whole milliseconds. A store either keeps its
samples or throws them away.
-/

namespace SectionStore

/-- The samples of a store, the oldest first. -/
structure Metrics where
  /-- Are samples kept? -/
  recording : Bool
  writes : List Nat
  reads : List Nat
  deriving DecidableEq, Repr

namespace Metrics

/-- Metrics without samples. -/
def new (recording : Bool) : Metrics :=
  ⟨recording, [], []⟩

/-- Takes a sample of a write; a time too long to be reported gives none. -/
def noteWrite (metrics : Metrics) (micros : Nat) : Metrics :=
  if metrics.recording then
    { metrics with writes := metrics.writes ++ (Clock.wholeMillis? micros).toList }
  else metrics

/-- Takes a sample of a read; a time too long to be reported gives none. -/
def noteRead (metrics : Metrics) (micros : Nat) : Metrics :=
  if metrics.recording then
    { metrics with reads := metrics.reads ++ (Clock.wholeMillis? micros).toList }
  else metrics

end Metrics

end SectionStore
