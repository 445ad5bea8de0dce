import HedgedStore.Duration

/-! Instants of a clock that never runs backwards. It counts seconds in a signed word of
sixty-four bits, so an instant that lies too far ahead does not exist. -/
namespace HedgedStore

/-- An instant, in nanoseconds since the clock's zero. -/
structure Instant where
  nanos : Nat
deriving DecidableEq, Inhabited, Repr

namespace Instant

/-- The clock cannot count as far as this. -/
def limit : Nat := 0x8000000000000000 * Duration.nanosPerSecond

/-- The instant so much later, if there is one. -/
def after? (t : Instant) (d : Duration) : Option Instant :=
  if t.nanos + d.nanos < limit then some ⟨t.nanos + d.nanos⟩ else none

def since (later earlier : Instant) : Duration := ⟨later.nanos - earlier.nanos⟩

end Instant

end HedgedStore
