import HedgedStore.Proofs.Backend.Accounting

/-! Which requests a backend at work sends. Whatever its operations do, and whatever comes back to
them, each of their requests is about objects whose keys begin as all keys of the backend do. -/
namespace HedgedStore

/-- The request is about objects of the backend. -/
def Backend.Owns (backend : Backend) (request : Request) : Prop :=
  request.Within backend.bucket backend.keyPrefix

def Query.isCopy : Query → Bool
  | copy _ _ => true
  | fetch _ | list _ | delete _ => false

namespace Backend

variable (backend : Backend)

theorem objectKey_begins (key : String) :
    backend.keyPrefix.toList <+: (backend.objectKey key).toList := by
  simp [objectKey]

theorem owns_put (key : String) (body : Bytes) (options : UploadOptions) :
    backend.Owns (backend.putRequest key body options) := by
  refine .inl ⟨backend.objectKey key, ⟨rfl, rfl, ?_⟩, backend.objectKey_begins key⟩
  unfold Request.header? putRequest
  cases options.compress <;> cases options.cacheControl <;>
    cases options.immutable && backend.conditionalWrites <;> rfl

theorem owns_query {query : Query} (copying : query.isCopy = false) :
    backend.Owns (query.request backend) := by
  cases query with
  | fetch key => exact .inl ⟨backend.objectKey key, ⟨rfl, rfl, rfl⟩, backend.objectKey_begins key⟩
  | list start =>
    exact .inr ⟨backend.objectKey start, ⟨⟨rfl, rfl, rfl⟩, rfl⟩, backend.objectKey_begins start⟩
  | copy source target => cases copying
  | delete key => exact .inl ⟨backend.objectKey key, ⟨rfl, rfl, rfl⟩, backend.objectKey_begins key⟩

end Backend

namespace Errand

variable {α : Type} (errand : Errand α)

theorem send_request (now : Instant) : (errand.send now).request = errand.request := by
  unfold send
  split <;> rfl

theorem receive_request (now : Instant) (exchange : Exchange) :
    (errand.receive now exchange).1.request = errand.request := by
  unfold receive
  split
  · unfold settle
    split <;> rfl
  · rfl

theorem fail_request (why : Refusal) : (errand.fail why).request = errand.request := by
  unfold fail
  split <;> rfl

end Errand

/-- All that the task sends is about objects of the backend. -/
def Task.Confined (backend : Backend) : Task → Prop
  | order _ | refused _ _ | dropped _ => True
  | post sent => backend.Owns sent.upload.request ∧
      ∀ attempt errand, sent.errands attempt = some errand → backend.Owns errand.request
  | inquiry asked => backend.Owns (asked.query.request backend) ∧
      ∀ errand, asked.errand = some errand → backend.Owns errand.request

variable {backend : Backend}

namespace Post

theorem update_owns {errands : Hedge.Attempt → Option (Errand Unit)} {next : Option (Errand Unit)}
    (old : ∀ attempt errand, errands attempt = some errand → backend.Owns errand.request)
    (new : ∀ errand, next = some errand → backend.Owns errand.request) (changed : Hedge.Attempt) :
    ∀ attempt errand, Function.update errands changed next attempt = some errand →
      backend.Owns errand.request := by
  intro attempt errand found
  by_cases own : attempt = changed
  · subst own
    rw [Function.update_self] at found
    exact new errand found
  · rw [Function.update_of_ne own] at found
    exact old attempt errand found

/-- Every action of a race leaves the errands with the upload's request. -/
theorem act_confined {sent : Post} (confined : (Task.post sent).Confined backend)
    (action : Hedge.Action) : (Task.post (sent.act backend action)).Confined backend := by
  obtain ⟨owns, errands⟩ := confined
  cases action with
  | call attempt =>
    refine ⟨owns, update_owns errands (fun errand fresh => ?_) attempt⟩
    obtain rfl := Option.some.inj fresh
    exact owns
  | release attempt =>
    refine ⟨owns, update_owns errands (fun errand gone => ?_) attempt⟩
    cases gone
  | poll | complete | discard | countLaunch | countWin | tellLaunch | tellWinner =>
    exact ⟨owns, errands⟩

theorem foldl_act_confined {sent : Post} (confined : (Task.post sent).Confined backend)
    (actions : List Hedge.Action) :
    (Task.post (actions.foldl (act backend) sent)).Confined backend := by
  induction actions generalizing sent with
  | nil => exact confined
  | cons action actions ih => exact ih (act_confined confined action)

theorem turn_confined {sent : Post} (confined : (Task.post sent).Confined backend)
    (actions : List Hedge.Action) {next : Upload × List Effect}
    (same : next.1.request = sent.upload.request) :
    (Task.post (sent.turn backend actions next).1).Confined backend := by
  have moved : (Task.post { sent with
      upload := next.1
      actions := sent.actions ++ actions }).Confined backend :=
    ⟨same ▸ confined.1, confined.2⟩
  exact foldl_act_confined moved actions

end Post

namespace Task

variable {task : Task}

theorem poll_confined (confined : task.Confined backend) (now : Instant) (fired : Bool) :
    (task.poll backend now fired).1.Confined backend := by
  cases task with
  | order placed =>
    rw [poll_order]
    have fresh : (Task.post (begun backend placed now)).Confined backend :=
      ⟨backend.owns_put placed.key _ placed.options, fun _ _ found => nomatch found⟩
    exact Post.turn_confined fresh _ rfl
  | post sent => exact Post.turn_confined confined _ rfl
  | inquiry asked =>
    obtain ⟨owns, errands⟩ := confined
    simp only [poll, Inquiry.poll]
    split
    · exact ⟨owns, errands⟩
    · have current : backend.Owns (asked.errand.getD (.fresh backend.maxAttempts asked.query.read
          (asked.query.request backend))).request := by
        cases found : asked.errand with
        | none => exact owns
        | some errand => exact errands errand found
      split
      · refine ⟨owns, fun errand found => ?_⟩
        obtain rfl := Option.some.inj found
        exact current
      · refine ⟨owns, fun errand found => ?_⟩
        cases found
  | refused | dropped => trivial

theorem drop_confined (confined : task.Confined backend) (now : Instant) :
    (task.drop backend now).1.Confined backend := by
  cases task with
  | order | refused | dropped => trivial
  | post sent => exact Post.turn_confined confined _ rfl
  | inquiry asked =>
    simp only [drop]
    split
    · exact confined
    · trivial

theorem correspond_confined (confined : task.Confined backend) (attempt : Hedge.Attempt)
    {turn : ∀ α : Type, Errand α → Errand α × List Measurement}
    (same : ∀ α errand, (turn α errand).1.request = errand.request) :
    (task.correspond attempt turn).1.Confined backend := by
  cases task with
  | order | refused | dropped => trivial
  | post sent =>
    cases found : sent.errands attempt with
    | none =>
      simp only [correspond, found]
      exact confined
    | some errand =>
      simp only [correspond, found]
      refine ⟨confined.1, Post.update_owns confined.2 (fun next there => ?_) attempt⟩
      obtain rfl := Option.some.inj there
      rw [same]
      exact confined.2 attempt errand found
  | inquiry asked =>
    cases found : asked.errand with
    | none =>
      simp only [correspond, found]
      exact confined
    | some errand =>
      simp only [correspond, found]
      refine ⟨confined.1, fun next there => ?_⟩
      obtain rfl := Option.some.inj there
      rw [same]
      exact confined.2 errand found

end Task

namespace Traffic

variable {σ : Type} {traffic later : Traffic σ}

/-- The traffic is that of the backend, and all of it is about the backend's objects. -/
structure Confined (traffic : Traffic σ) (backend : Backend) : Prop where
  backend_eq : traffic.session.backend = backend
  tasks : ∀ task ∈ traffic.tasks, task.Confined backend

theorem Confined.move (confined : traffic.Confined backend) {place : Nat}
    {turn : Task → Task × List Effect} (moved : traffic.move place turn = .ok later)
    (turns : ∀ task : Task, task.Confined backend → (turn task).1.Confined backend) :
    later.Confined backend := by
  obtain rfl | ⟨task, session, found, happened, rfl⟩ := move_eq_ok moved
  · exact confined
  · constructor
    case backend_eq => exact (Session.foldlM_happen_keeps happened).1.trans confined.backend_eq
    case tasks =>
      intro other member
      rcases List.mem_or_eq_of_mem_set member with old | rfl
      · exact confined.tasks other old
      · exact turns task (confined.tasks task (List.mem_of_getElem? found))

theorem Confined.correspond (confined : traffic.Confined backend) {place : Nat}
    {attempt : Hedge.Attempt} {turn : ∀ α : Type, Errand α → Errand α × List Measurement}
    (moved : traffic.move place (Task.correspond attempt turn) = .ok later)
    (same : ∀ α errand, (turn α errand).1.request = errand.request) : later.Confined backend :=
  confined.move moved fun task own => task.correspond_confined own attempt same

theorem Confined.snoc (confined : traffic.Confined backend) {task : Task}
    (own : task.Confined backend) :
    ({ traffic with tasks := traffic.tasks ++ [task] } : Traffic σ).Confined backend := by
  constructor
  case backend_eq => exact confined.backend_eq
  case tasks =>
    intro other member
    rcases List.mem_append.mp member with old | new
    · exact confined.tasks other old
    · obtain rfl := List.mem_singleton.mp new
      exact own

/-- The event begins no copy. -/
def Event.spares : Event → Bool
  | ask query => !query.isCopy
  | wait _ | upload _ | poll _ _ | drop _ | send _ _ | receive _ _ _ | fail _ _ _ => true

theorem Confined.step (confined : traffic.Confined backend) {event : Event}
    (spares : event.spares = true) (stepped : traffic.step event = .ok later) :
    later.Confined backend := by
  obtain rfl := confined.backend_eq
  cases event with
  | wait nanos =>
    obtain rfl := Except.ok.inj stepped
    exact ⟨confined.backend_eq, confined.tasks⟩
  | upload placed =>
    obtain rfl := Except.ok.inj stepped
    exact confined.snoc trivial
  | ask query =>
    obtain rfl := Except.ok.inj stepped
    have copying : query.isCopy = false := by simpa [Event.spares] using spares
    exact confined.snoc ⟨traffic.session.backend.owns_query copying, fun _ found => nomatch found⟩
  | poll place fired => exact confined.move stepped fun task own => task.poll_confined own _ _
  | drop place => exact confined.move stepped fun task own => task.drop_confined own _
  | send place attempt =>
    simp only [Traffic.step] at stepped
    exact confined.correspond stepped fun _ errand => errand.send_request _
  | receive place attempt exchange =>
    simp only [Traffic.step] at stepped
    exact confined.correspond stepped fun _ errand => errand.receive_request _ exchange
  | fail place attempt why =>
    simp only [Traffic.step] at stepped
    exact confined.correspond stepped fun _ errand => errand.fail_request why

end Traffic

end HedgedStore
