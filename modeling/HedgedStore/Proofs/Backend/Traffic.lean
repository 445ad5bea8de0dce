import HedgedStore.Backend.Session
import HedgedStore.Proofs.Backend.Errand
import HedgedStore.Proofs.Backend.Prepared
import Mathlib.Logic.Function.Basic

/-! Operations on one backend that overlap. Each of them is polled now and then, goes on as far as
it can, and may be given up wherever it waits; before its first poll it has done nothing. Between
polls its requests make their way to the store. What the operations share is the metrics and the
log of the backend, and all that one does to these in a poll is done in one go. -/
namespace HedgedStore

/-- An operation other than an upload. -/
inductive Query where
  | fetch (key : String)
  | list (start : String)
  | copy (source target : String)
  | delete (key : String)
deriving DecidableEq, Repr

namespace Query

/-- What the store's answer brings. -/
def Found : Query → Type
  | fetch _ => Download
  | list _ => Listing
  | copy _ _ | delete _ => Unit

def Returned : Query → Type
  | fetch _ => Bytes
  | list _ => List String
  | copy _ _ | delete _ => Unit

def request (backend : Backend) : Query → Request
  | fetch key => backend.fetchRequest key
  | list start => backend.listRequest start
  | copy source target => backend.copyRequest source target
  | delete key => backend.deleteRequest key

def read : (query : Query) → Answer → Verdict query.Found
  | fetch _ => Answer.download
  | list _ => Answer.listed
  | copy _ _ => Answer.copied
  | delete _ => Answer.accepted

def conclude (backend : Backend) : (query : Query) → Except Refusal query.Found →
    Except Failure query.Returned × List Effect
  | fetch key => Backend.fetched key
  | list start => backend.listed start
  | copy source target => Backend.copied source target
  | delete key => Backend.deleted key

end Query

structure Inquiry where
  query : Query
  errand : Option (Errand query.Found) := none
  result : Option (Except Failure query.Returned) := none

def Inquiry.poll (backend : Backend) (inquiry : Inquiry) : Inquiry × List Effect :=
  if inquiry.result.isSome then (inquiry, [])
  else
    let errand := inquiry.errand.getD
      (.fresh backend.maxAttempts inquiry.query.read (inquiry.query.request backend))
    match errand.result with
    | none => ({ inquiry with errand := some errand }, [])
    | some found =>
      let (result, effects) := inquiry.query.conclude backend found
      ({ inquiry with errand := none, result := some result }, effects)

/-- What an upload is called with. -/
structure Order where
  key : String
  data : Bytes
  options : UploadOptions
deriving DecidableEq, Repr

def Order.wireBody (order : Order) : Bytes := order.options.wireBody order.data

/-- What is asked of a backend. -/
inductive Demand where
  | upload (order : Order)
  | ask (query : Query)
deriving DecidableEq, Repr

/-- An upload in its race. -/
structure Post where
  order : Order
  upload : Upload
  begun : Instant
  errands : Hedge.Attempt → Option (Errand Unit) := fun _ => none
  /-- What its race has done so far, in order. -/
  actions : List Hedge.Action := []

namespace Post

def freshErrand (backend : Backend) (upload : Upload) : Errand Unit :=
  .fresh backend.maxAttempts Answer.accepted upload.request

def act (backend : Backend) (post : Post) : Hedge.Action → Post
  | .call attempt =>
    let errand := freshErrand backend post.upload
    { post with errands := Function.update post.errands attempt (some errand) }
  | .release attempt => { post with errands := Function.update post.errands attempt none }
  | _ => post

/-- What an attempt would answer. One that this very poll calls is no further than its start. -/
def result? (backend : Backend) (post : Post) (attempt : Hedge.Attempt) :
    Option (Except Failure Unit) :=
  let errand := (post.errands attempt).getD (freshErrand backend post.upload)
  errand.result.map fun result => result.mapError post.upload.refused

/-- The timer of the delay is never early, but it may be late. -/
def view (backend : Backend) (now : Instant) (fired : Bool) (post : Post) :
    Hedge.View (Except Failure Unit) :=
  { primary := post.result? backend .primary
    hedge := post.result? backend .hedge
    elapsed := fired &&
      decide (post.begun.nanos + post.upload.hedgeDelay.nanos ≤ now.nanos) }

/-- The upload goes on by these actions of its race. -/
def turn (backend : Backend) (post : Post) (actions : List Hedge.Action)
    (next : Upload × List Effect) : Post × List Effect :=
  (actions.foldl (act backend) { post with
    upload := next.1
    actions := post.actions ++ actions }, next.2)

def poll (backend : Backend) (now : Instant) (fired : Bool) (post : Post) : Post × List Effect :=
  let view := post.view backend now fired
  post.turn backend (post.upload.phase.poll view).2 (post.upload.poll view (now.since post.begun))

def drop (backend : Backend) (now : Instant) (post : Post) : Post × List Effect :=
  post.turn backend post.upload.phase.drop.2 (post.upload.drop (now.since post.begun))

end Post

inductive Task where
  /-- An upload before its first poll. -/
  | order (order : Order)
  /-- An upload that has failed before its race. -/
  | refused (order : Order) (why : Failure)
  | post (post : Post)
  | inquiry (inquiry : Inquiry)
  /-- An operation that was given up, other than an upload in its race. -/
  | dropped (demand : Demand)

namespace Task

/-- What the task has been called for. -/
def demand : Task → Demand
  | order placed | refused placed _ => .upload placed
  | post sent => .upload sent.order
  | inquiry asked => .ask asked.query
  | dropped demand => demand

def poll (backend : Backend) (now : Instant) (fired : Bool) : Task → Task × List Effect
  | order placed =>
    match backend.upload placed.key placed.data placed.options with
    | .ok (upload, first) =>
      let start : Post := { order := placed, upload, begun := now }
      let (sent, effects) := start.poll backend now fired
      (post sent, first ++ effects)
    | .error why => (refused placed why, [])
  | post sent =>
    let (sent, effects) := sent.poll backend now fired
    (post sent, effects)
  | inquiry asked =>
    let (asked, effects) := asked.poll backend
    (inquiry asked, effects)
  | refused placed why => (refused placed why, [])
  | dropped demand => (dropped demand, [])

def drop (backend : Backend) (now : Instant) : Task → Task × List Effect
  | order placed => (dropped (.upload placed), [])
  | refused placed why => (refused placed why, [])
  | post sent =>
    let (sent, effects) := sent.drop backend now
    (post sent, effects)
  | inquiry asked =>
    (if asked.result.isSome then inquiry asked else dropped (.ask asked.query), [])
  | dropped demand => (dropped demand, [])

/-- Something happens to a request of the task. A query has only one. -/
def correspond (attempt : Hedge.Attempt)
    (turn : ∀ α : Type, Errand α → Errand α × List Measurement) : Task → Task × List Effect
  | post sent =>
    match sent.errands attempt with
    | some errand =>
      let (errand, measured) := turn Unit errand
      (post { sent with errands := Function.update sent.errands attempt (some errand) },
        measured.map .measure)
    | none => (post sent, [])
  | inquiry asked =>
    match asked.errand with
    | some errand =>
      let (errand, measured) := turn asked.query.Found errand
      (inquiry { asked with errand := some errand }, measured.map .measure)
    | none => (inquiry asked, [])
  | task => (task, [])

/-- The outcome of an upload whose race is over. -/
def outcome? : Task → Option (Hedge.Outcome (Except Failure Unit))
  | post sent => sent.upload.phase.outcome?
  | _ => none

def isCompleted (task : Task) : Bool := task.outcome?.isSome

end Task

structure Traffic (σ : Type) where
  session : Session σ
  /-- The operations, in the order in which they were called. -/
  tasks : List Task := []
  /-- The places of the uploads whose races are over, in the order in which these ended. -/
  completed : List Nat := []

namespace Traffic

open Summary (Fault)

variable {σ : Type}

inductive Event where
  | wait (nanos : Nat)
  | upload (order : Order)
  | ask (query : Query)
  | poll (place : Nat) (fired : Bool)
  | drop (place : Nat)
  | send (place : Nat) (attempt : Hedge.Attempt)
  | receive (place : Nat) (attempt : Hedge.Attempt) (exchange : Exchange)
  | fail (place : Nat) (attempt : Hedge.Attempt) (why : Refusal)

/-- One task goes on, and its effects happen at once. -/
def move (traffic : Traffic σ) (place : Nat) (turn : Task → Task × List Effect) :
    Except Fault (Traffic σ) :=
  match traffic.tasks[place]? with
  | some task => do
    let (next, effects) := turn task
    let ended := if !task.isCompleted && next.isCompleted then [place] else []
    return {
      session := ← (effects.map fun effect => (0, effect)).foldlM Session.happen traffic.session
      tasks := traffic.tasks.set place next
      completed := traffic.completed ++ ended }
  | none => .ok traffic

def step (traffic : Traffic σ) (event : Event) : Except Fault (Traffic σ) :=
  let session := traffic.session
  match event with
  | .wait nanos =>
    .ok { traffic with session := { session with now := ⟨session.now.nanos + nanos⟩ } }
  | .upload order => .ok { traffic with tasks := traffic.tasks ++ [.order order] }
  | .ask query => .ok { traffic with tasks := traffic.tasks ++ [.inquiry { query }] }
  | .poll place fired => traffic.move place (Task.poll session.backend session.now fired)
  | .drop place => traffic.move place (Task.drop session.backend session.now)
  | .send place attempt =>
    traffic.move place (Task.correspond attempt fun _ errand => (errand.send session.now, []))
  | .receive place attempt exchange =>
    traffic.move place (Task.correspond attempt fun _ errand => errand.receive session.now exchange)
  | .fail place attempt why =>
    traffic.move place (Task.correspond attempt fun _ errand => (errand.fail why, []))

def run (config : StoreConfig) (backend : Backend) (link : Link σ) (store : σ) (start : Instant)
    (events : List Event) : Except Fault (Traffic σ) := do
  events.foldlM step { session := ← Session.create config backend link store start }

end Traffic

end HedgedStore
