import HedgedStore.Clock
import HedgedStore.Metrics.Measurement

/-! Timing the exchanges of one call. The watch is set anew when an attempt is sent and read when
an answer comes in; an attempt without an answer leaves no measurement. -/
namespace HedgedStore

structure Stopwatch where
  /-- The method of the attempt under way, and when it was sent. -/
  started : Option (String × Instant) := none
deriving DecidableEq, Inhabited, Repr

namespace Stopwatch

/-- An attempt is sent. Methods are told apart in lower case. -/
def start (_ : Stopwatch) (method : String) (now : Instant) : Stopwatch :=
  ⟨some (method.toLower, now)⟩

/-- An answer with this status comes in. -/
def answered? (watch : Stopwatch) (now : Instant) (status : Nat) : Option Measurement :=
  watch.started.map fun (method, sent) => .answered method status (now.since sent)

end Stopwatch

end HedgedStore
