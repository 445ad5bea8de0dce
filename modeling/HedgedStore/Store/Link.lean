import HedgedStore.Duration
import HedgedStore.Store.Answer
import HedgedStore.Store.Request

/-! The way to a store. A request is sent again while it is worth it and attempts are left; what
comes of the last attempt counts. -/
namespace HedgedStore

structure Exchange where
  /-- There may be no answer. -/
  answer : Option Answer
  /-- The time that it takes, with the pause in front of it. -/
  takes : Duration
deriving DecidableEq, Repr

/-- Carries requests to a store whose state may change with each of them. -/
structure Link (σ : Type) where
  exchange : σ → Request → Exchange × σ

def Link.dead : Link Unit := ⟨fun _ _ => (⟨none, ⟨0⟩⟩, ())⟩

namespace Exchange

def unanswered : Refusal :=
  { status := none, detail := "no answer", cause := "the store was not reached" }

def verdict {α : Type} (read : Answer → Verdict α) (exchange : Exchange) : Verdict α :=
  match exchange.answer with
  | some answer => read answer
  | none => .retry unanswered

end Exchange

/-- A request on its way until it is settled. -/
structure Course (α : Type) where
  result : Except Refusal α
  /-- The attempts, in order. -/
  exchanges : List Exchange

def Course.takes {α : Type} (course : Course α) : Nat :=
  course.exchanges.foldl (fun total exchange => total + exchange.takes.nanos) 0

namespace Link

variable {σ α : Type}

/-- Sends a request, and again up to so many times while that may help. -/
def send (link : Link σ) (read : Answer → Verdict α) (request : Request) :
    Nat → σ → Course α × σ
  | more, state =>
    let (exchange, state) := link.exchange state request
    match exchange.verdict read, more with
    | .success a, _ => (⟨.ok a, [exchange]⟩, state)
    | .failure why, _ | .retry why, 0 => (⟨.error why, [exchange]⟩, state)
    | .retry _, more + 1 =>
      let (course, state) := link.send read request more state
      (⟨course.result, exchange :: course.exchanges⟩, state)

/-- The request cannot be put into words. -/
def unsendable : Refusal :=
  { status := none, detail := "unsendable request", cause := "an empty key or a bad header" }

/-- Settles a request in at most so many attempts. One that cannot be sent fails at once. -/
def settle (link : Link σ) (attempts : Nat) (read : Answer → Verdict α) (request : Request)
    (state : σ) : Course α × σ :=
  if request.isSendable then link.send read request (attempts - 1) state
  else (⟨.error unsendable, []⟩, state)

end Link

end HedgedStore
