import HedgedStore.Store.Link
import HedgedStore.Store.Stopwatch

/-! A request on its way, exchange by exchange, for a world in which other things happen between
its exchanges. -/
namespace HedgedStore

structure Errand (α : Type) where
  request : Request
  read : Answer → Verdict α
  /-- How often the request may still be sent again. -/
  left : Nat
  watch : Stopwatch := {}
  /-- An exchange is under way. -/
  out : Bool := false
  result : Option (Except Refusal α) := none

namespace Errand

variable {α : Type}

/-- A request that cannot be sent fails at once. -/
def fresh (attempts : Nat) (read : Answer → Verdict α) (request : Request) : Errand α :=
  { request, read, left := attempts - 1
    result := if request.isSendable then none else some (.error Link.unsendable) }

def send (now : Instant) (errand : Errand α) : Errand α :=
  if errand.out || errand.result.isSome then errand
  else { errand with out := true, watch := errand.watch.start errand.request.method.name now }

def settle (errand : Errand α) (verdict : Verdict α) : Errand α :=
  match verdict, errand.left with
  | .success a, _ => { errand with out := false, result := some (.ok a) }
  | .failure why, _ | .retry why, 0 => { errand with out := false, result := some (.error why) }
  | .retry _, more + 1 => { errand with out := false, left := more }

/-- The exchange under way is over; if it brought an answer, that is measured. -/
def receive (now : Instant) (exchange : Exchange) (errand : Errand α) :
    Errand α × List Measurement :=
  if errand.out then
    (errand.settle (exchange.verdict errand.read),
      (exchange.answer.bind fun answer => errand.watch.answered? now answer.status).toList)
  else (errand, [])

/-- The request is given up for a reason that lies on this side of the link. -/
def fail (why : Refusal) (errand : Errand α) : Errand α :=
  if errand.result.isSome then errand
  else { errand with out := false, result := some (.error why) }

end Errand

end HedgedStore
