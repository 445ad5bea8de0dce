import HedgedStore.Number.Binary64

/-! Spans of time, in nanoseconds, and their text. -/
namespace HedgedStore

structure Duration where
  nanos : Nat
deriving DecidableEq, Inhabited, Repr

namespace Duration

def nanosPerSecond : Nat := 1000000000

def ofMillis (n : Nat) : Duration := ⟨n * 1000000⟩

def ofSeconds (n : Nat) : Duration := ⟨n * nanosPerSecond⟩

/-- The length in seconds: the whole seconds and the rest are rounded apart. -/
def seconds (d : Duration) : Binary64 :=
  let whole := Binary64.ofUInt64 (d.nanos / nanosPerSecond).toUInt64
  let rest := Binary64.ofUInt64 (d.nanos % nanosPerSecond).toUInt64
  whole.add (rest.div (.ofUInt64 nanosPerSecond.toUInt64))

/-- The decimal of `n / 10 ^ places`, without needless zeros after the point. -/
def scaled (places n : Nat) : String :=
  let fraction := Nat.toDigits 10 (n % Nat.pow 10 places)
  let fraction := List.replicate (places - fraction.length) '0' ++ fraction
  let fraction := (fraction.reverse.dropWhile (· == '0')).reverse
  let whole := toString (n / Nat.pow 10 places)
  if fraction.isEmpty then whole else whole ++ "." ++ String.ofList fraction

/-- The length in the largest of the units s, ms, µs and ns of which it holds at least one. -/
def text (d : Duration) : String :=
  if d.nanos ≥ 1000000000 then scaled 9 d.nanos ++ "s"
  else if d.nanos ≥ 1000000 then scaled 6 d.nanos ++ "ms"
  else if d.nanos ≥ 1000 then scaled 3 d.nanos ++ "µs"
  else toString d.nanos ++ "ns"

end Duration

end HedgedStore
