import HedgedStore.Proofs.Backend.Confined
import HedgedStore.Proofs.Store.Shelf

/-! Backends side by side on one bucket. Their operations overlap as they like. The store handles
each request that is sent once at most, maybe late, or never; its answer is received, or it is lost.
Where the keys of no backend begin as those of another do, none of them notices the others. -/
namespace HedgedStore

open Summary (Fault)
open StoreMetrics (HasRoom)

/-- The request that the errand is about to send. -/
def Errand.ready? {α : Type} (errand : Errand α) : Option Request :=
  if errand.out || errand.result.isSome then none else some errand.request

def Task.ready? (attempt : Hedge.Attempt) : Task → Option Request
  | post sent => (sent.errands attempt).bind Errand.ready?
  | inquiry asked => asked.errand.bind Errand.ready?
  | order _ | refused _ _ | dropped _ => none

structure Letter where
  place : Nat
  attempt : Hedge.Attempt
  request : Request
  /-- What the store answered when it handled the request, if it has. -/
  reply : Option (Option Answer) := none
  /-- For the sender the exchange is over. -/
  closed : Bool := false

/-- What the sender gets, who may lose it. -/
def Letter.outcome? (letter : Letter) (lost : Bool) : Option (Option Answer) :=
  if letter.closed then none else if lost then some none else letter.reply

/-- A backend at work, with all requests that it has sent. -/
structure Neighbour where
  traffic : Traffic Unit
  letters : List Letter := []

namespace Neighbour

/-- What happens on the spot. There are no copies. -/
def isInner : Traffic.Event → Bool
  | .ask query => !query.isCopy
  | .send _ _ | .receive _ _ _ => false
  | .wait _ | .upload _ | .poll _ _ | .drop _ | .fail _ _ _ => true

inductive Move
  | inner (event : { event : Traffic.Event // isInner event = true })
  | send (place : Nat) (attempt : Hedge.Attempt)
  | receive (letter : Nat) (lost : Bool)

def send (neighbour : Neighbour) (place : Nat) (attempt : Hedge.Attempt) :
    Except Fault Neighbour := do
  let ready := neighbour.traffic.tasks[place]?.bind (Task.ready? attempt)
  let sent := ready.map fun request => ({ place, attempt, request } : Letter)
  return {
    traffic := ← neighbour.traffic.step (.send place attempt)
    letters := neighbour.letters ++ sent.toList }

def receive (neighbour : Neighbour) (place : Nat) (letter : Letter) (answer : Option Answer) :
    Except Fault Neighbour := do
  let exchange := { answer, takes := ⟨0⟩ }
  return {
    traffic := ← neighbour.traffic.step (.receive letter.place letter.attempt exchange)
    letters := neighbour.letters.set place { letter with closed := true } }

def advance (neighbour : Neighbour) : Move → Except Fault Neighbour
  | .inner event => do
    return { neighbour with traffic := ← neighbour.traffic.step event.1 }
  | .send place attempt => neighbour.send place attempt
  | .receive place lost =>
    match neighbour.letters[place]? with
    | none => .ok neighbour
    | some letter =>
      match letter.outcome? lost with
      | none => .ok neighbour
      | some answer => neighbour.receive place letter answer

/-- The letter at this place, unless the store has handled it. -/
def pending? (neighbour : Neighbour) (place : Nat) : Option Letter :=
  neighbour.letters[place]?.filter fun letter => letter.reply.isNone

def answered (neighbour : Neighbour) (place : Nat) (letter : Letter) (answer : Option Answer) :
    Neighbour :=
  { neighbour with letters := neighbour.letters.set place { letter with reply := some answer } }

end Neighbour

structure Neighbourhood (ι σ : Type) where
  store : σ
  party : ι → Neighbour

namespace Neighbourhood

variable {ι σ : Type} [DecidableEq ι]

inductive Event (ι : Type)
  | move (who : ι) (move : Neighbour.Move)
  /-- The store handles a letter. -/
  | handle (who : ι) (place : Nat)

def Event.who : Event ι → ι
  | move who _ | handle who _ => who

def step (link : Link σ) (world : Neighbourhood ι σ) :
    Event ι → Except Fault (Neighbourhood ι σ)
  | .move who move => do
    let next ← (world.party who).advance move
    return { world with party := Function.update world.party who next }
  | .handle who place =>
    match (world.party who).pending? place with
    | none => .ok world
    | some letter =>
      let (exchange, store) := link.exchange world.store letter.request
      let next := (world.party who).answered place letter exchange.answer
      .ok { store, party := Function.update world.party who next }

def run (link : Link σ) (world : Neighbourhood ι σ) (events : List (Event ι)) :
    Except Fault (Neighbourhood ι σ) :=
  events.foldlM (step link) world

end Neighbourhood

/-! Every letter is about the objects of its sender. -/

namespace Neighbour

variable {backend : Backend} {neighbour later : Neighbour}

structure Confined (neighbour : Neighbour) (backend : Backend) : Prop where
  traffic : neighbour.traffic.Confined backend
  letters : ∀ letter ∈ neighbour.letters, backend.Owns letter.request

theorem ready_owns {task : Task} (confined : task.Confined backend) {attempt : Hedge.Attempt}
    {request : Request} (ready : task.ready? attempt = some request) : backend.Owns request := by
  have current : ∀ {α : Type} {errand : Errand α}, errand.ready? = some request →
      request = errand.request := by
    intro α errand here
    unfold Errand.ready? at here
    split at here
    · cases here
    · exact (Option.some.inj here).symm
  cases task with
  | order | refused | dropped => cases ready
  | post sent =>
    obtain ⟨errand, found, here⟩ := Option.bind_eq_some_iff.mp ready
    rw [current here]
    exact confined.2 attempt errand found
  | inquiry asked =>
    obtain ⟨errand, found, here⟩ := Option.bind_eq_some_iff.mp ready
    rw [current here]
    exact confined.2 errand found

/-- A letter that changes keeps its request. -/
theorem Confined.letters_set (confined : neighbour.Confined backend) {place : Nat}
    {letter next : Letter} (found : neighbour.letters[place]? = some letter)
    (same : next.request = letter.request) :
    ∀ other ∈ neighbour.letters.set place next, backend.Owns other.request := by
  intro other member
  rcases List.mem_or_eq_of_mem_set member with old | rfl
  · exact confined.letters other old
  · rw [same]
    exact confined.letters letter (List.mem_of_getElem? found)

theorem Confined.advance (confined : neighbour.Confined backend) {move : Move}
    (advanced : neighbour.advance move = .ok later) : later.Confined backend := by
  cases move with
  | inner event =>
    obtain ⟨event, inner⟩ := event
    obtain ⟨traffic, stepped, advanced⟩ := bind_eq_ok.mp advanced
    obtain rfl := Except.ok.inj advanced
    have spares : event.spares = true := by
      cases event with
      | ask query => exact inner
      | wait | upload | poll | drop | send | receive | fail => rfl
    exact ⟨confined.traffic.step spares stepped, confined.letters⟩
  | send place attempt =>
    obtain ⟨traffic, stepped, advanced⟩ := bind_eq_ok.mp advanced
    obtain rfl := Except.ok.inj advanced
    constructor
    case traffic => exact confined.traffic.step rfl stepped
    case letters =>
      intro letter member
      rcases List.mem_append.mp member with old | new
      · exact confined.letters letter old
      · obtain ⟨request, ready, rfl⟩ := Option.map_eq_some_iff.mp (Option.mem_toList.mp new)
        obtain ⟨task, found, ready⟩ := Option.bind_eq_some_iff.mp ready
        exact ready_owns (confined.traffic.tasks task (List.mem_of_getElem? found)) ready
  | receive place lost =>
    simp only [Neighbour.advance] at advanced
    split at advanced
    · obtain rfl := Except.ok.inj advanced
      exact confined
    · rename_i letter found
      split at advanced
      · obtain rfl := Except.ok.inj advanced
        exact confined
      · obtain ⟨traffic, stepped, advanced⟩ := bind_eq_ok.mp advanced
        obtain rfl := Except.ok.inj advanced
        exact ⟨confined.traffic.step rfl stepped, confined.letters_set found rfl⟩

theorem pending_eq_some {place : Nat} {letter : Letter}
    (pending : neighbour.pending? place = some letter) :
    neighbour.letters[place]? = some letter ∧ letter ∈ neighbour.letters := by
  have found := (Option.filter_eq_some_iff.mp pending).1
  exact ⟨found, List.mem_of_getElem? found⟩

theorem Confined.answered (confined : neighbour.Confined backend) {place : Nat} {letter : Letter}
    (pending : neighbour.pending? place = some letter) (answer : Option Answer) :
    (neighbour.answered place letter answer).Confined backend :=
  ⟨confined.traffic, confined.letters_set (pending_eq_some pending).1 rfl⟩

end Neighbour

namespace Neighbourhood

variable {ι σ : Type} [DecidableEq ι] {link : Link σ} {holds : σ → String → Option StoredObject}
  {backends : ι → Backend} {world later alone : Neighbourhood ι σ}

def Confined (world : Neighbourhood ι σ) (backends : ι → Backend) : Prop :=
  ∀ who, (world.party who).Confined (backends who)

theorem Confined.update (confined : world.Confined backends) {who : ι} {next : Neighbour}
    (own : next.Confined (backends who)) (store : σ) :
    Confined { store, party := Function.update world.party who next } backends := by
  intro other
  by_cases same : other = who
  · subst same
    simp only [Function.update_self]
    exact own
  · simp only [Function.update_of_ne same]
    exact confined other

theorem Confined.step (confined : world.Confined backends) {event : Event ι}
    (stepped : world.step link event = .ok later) : later.Confined backends := by
  cases event with
  | move who move =>
    obtain ⟨next, advanced, stepped⟩ := bind_eq_ok.mp stepped
    obtain rfl := Except.ok.inj stepped
    exact confined.update ((confined who).advance advanced) world.store
  | handle who place =>
    simp only [Neighbourhood.step] at stepped
    split at stepped
    · obtain rfl := Except.ok.inj stepped
      exact confined
    · rename_i letter pending
      obtain rfl := Except.ok.inj stepped
      exact confined.update ((confined who).answered pending _) _

/-! What one step shows to the parties. -/

/-- The backends share a bucket whose objects are kept apart, and none of them has keys that begin
as those of another. -/
structure Fenced (link : Link σ) (holds : σ → String → Option StoredObject)
    (backends : ι → Backend) (bucket : String) : Prop where
  apart : link.KeepsApart bucket holds
  shared : ∀ who, (backends who).bucket = bucket
  incomparable : ∀ who other, who ≠ other →
    ¬ (backends who).keyPrefix.toList <+: (backends other).keyPrefix.toList

variable {bucket : String} {who : ι}

omit [DecidableEq ι] in
/-- No key is that of two backends. -/
theorem Fenced.foreign (fenced : Fenced link holds backends bucket) {other : ι}
    (differs : who ≠ other) {key : String} (own : (backends who).keyPrefix.toList <+: key.toList) :
    ¬ (backends other).keyPrefix.toList <+: key.toList := by
  intro also
  rcases List.prefix_or_prefix_of_prefix own also with first | second
  · exact fenced.incomparable who other differs first
  · exact fenced.incomparable other who differs.symm second

omit [DecidableEq ι] in
theorem Fenced.within (fenced : Fenced link holds backends bucket) {request : Request}
    (owns : (backends who).Owns request) : request.Within bucket (backends who).keyPrefix :=
  fenced.shared who ▸ owns

/-- A step of one party leaves the objects alone that are not its own. -/
theorem Fenced.spares (fenced : Fenced link holds backends bucket)
    (confined : world.Confined backends) {event : Event ι}
    (stepped : world.step link event = .ok later) {key : String}
    (foreign : ¬ (backends event.who).keyPrefix.toList <+: key.toList) :
    holds later.store key = holds world.store key := by
  cases event with
  | move who move =>
    obtain ⟨next, -, stepped⟩ := bind_eq_ok.mp stepped
    obtain rfl := Except.ok.inj stepped
    rfl
  | handle who place =>
    simp only [step] at stepped
    split at stepped
    · obtain rfl := Except.ok.inj stepped
      rfl
    · rename_i letter pending
      obtain rfl := Except.ok.inj stepped
      have owns := (confined who).letters letter (Neighbour.pending_eq_some pending).2
      exact fenced.apart.spares_within (fenced.within owns) world.store foreign

/-- To this party the two worlds are the same. -/
structure Alike (holds : σ → String → Option StoredObject) (backends : ι → Backend) (who : ι)
    (alone world : Neighbourhood ι σ) : Prop where
  party : alone.party who = world.party who
  objects : ∀ key, (backends who).keyPrefix.toList <+: key.toList →
    holds alone.store key = holds world.store key

theorem Alike.others (alike : Alike holds backends who alone world)
    (fenced : Fenced link holds backends bucket) (confined : world.Confined backends)
    {event : Event ι} (other : event.who ≠ who) (stepped : world.step link event = .ok later) :
    Alike holds backends who alone later := by
  constructor
  case party =>
    rw [alike.party]
    cases event with
    | move mover move =>
      obtain ⟨next, -, stepped⟩ := bind_eq_ok.mp stepped
      obtain rfl := Except.ok.inj stepped
      exact (Function.update_of_ne (Ne.symm other) _ _).symm
    | handle mover place =>
      simp only [step] at stepped
      split at stepped
      · obtain rfl := Except.ok.inj stepped
        rfl
      · obtain rfl := Except.ok.inj stepped
        exact (Function.update_of_ne (Ne.symm other) _ _).symm
  case objects =>
    intro key own
    rw [alike.objects key own]
    exact (fenced.spares confined stepped (fenced.foreign (Ne.symm other) own)).symm

theorem Alike.own (alike : Alike holds backends who alone world)
    (fenced : Fenced link holds backends bucket) (confined : world.Confined backends)
    {event : Event ι} (own : event.who = who) (stepped : world.step link event = .ok later) :
    ∃ next, alone.step link event = .ok next ∧ Alike holds backends who next later := by
  cases event with
  | move mover move =>
    obtain rfl : mover = who := own
    obtain ⟨next, advanced, stepped⟩ := bind_eq_ok.mp stepped
    obtain rfl := Except.ok.inj stepped
    rw [← alike.party] at advanced
    refine ⟨{ alone with party := Function.update alone.party mover next }, ?_, ?_, alike.objects⟩
    · rw [step, advanced]
      rfl
    · simp only [Function.update_self]
  | handle mover place =>
    obtain rfl : mover = who := own
    cases pending : (world.party mover).pending? place with
    | none =>
      rw [step, pending] at stepped
      obtain rfl := Except.ok.inj stepped
      exact ⟨alone, by rw [step, alike.party, pending], alike⟩
    | some letter =>
      rw [step, pending] at stepped
      obtain rfl := Except.ok.inj stepped
      have owns := (confined mover).letters letter (Neighbour.pending_eq_some pending).2
      obtain ⟨answers, after⟩ := fenced.apart.answers_within (fenced.within owns) alike.objects
      let exchanged := link.exchange alone.store letter.request
      refine ⟨{
        store := exchanged.2
        party := Function.update alone.party mover
          ((world.party mover).answered place letter exchanged.1.answer) }, ?_, ?_, after⟩
      · rw [step, alike.party, pending]
      · simp only [Function.update_self, exchanged, answers]

/-! What a whole run shows. -/

theorem Confined.run (confined : world.Confined backends) {events : List (Event ι)}
    (ran : world.run link events = .ok later) : later.Confined backends :=
  foldlM_keeps (P := fun world => world.Confined backends)
    (fun _ _ _ kept stepped => Confined.step kept stepped) confined ran

theorem Alike.run (alike : Alike holds backends who alone world)
    (fenced : Fenced link holds backends bucket) (confined : world.Confined backends)
    {events : List (Event ι)} (ran : world.run link events = .ok later) :
    ∃ last, alone.run link (events.filter fun event => event.who = who) = .ok last ∧
      Alike holds backends who last later := by
  induction events generalizing world alone with
  | nil =>
    obtain rfl := Except.ok.inj ran
    exact ⟨alone, rfl, alike⟩
  | cons event events ih =>
    obtain ⟨mid, stepped, ran⟩ := bind_eq_ok.mp ran
    by_cases own : event.who = who
    · obtain ⟨next, moved, alike_next⟩ := alike.own fenced confined own stepped
      obtain ⟨last, ran_alone, alike_last⟩ := ih alike_next (confined.step stepped) ran
      refine ⟨last, ?_, alike_last⟩
      rw [List.filter_cons_of_pos (by simpa using own), Neighbourhood.run, List.foldlM_cons, moved]
      exact ran_alone
    · obtain ⟨last, ran_alone, alike_last⟩ :=
        ih (alike.others fenced confined own stepped) (confined.step stepped) ran
      exact ⟨last, by rwa [List.filter_cons_of_neg (by simpa using own)], alike_last⟩

/-! Every run comes to its end while the clocks can count that far. -/

def Event.nanos : Event ι → Nat
  | move _ (.inner event) => event.1.nanos
  | move _ (.send _ _) | move _ (.receive _ _) | handle _ _ => 0

def span (events : List (Event ι)) : Nat := (events.map Event.nanos).sum

/-- The operations can go on for so long. -/
def HasTime (traffic : Traffic Unit) (nanos : Nat) : Prop :=
  traffic.session.metrics.Regular ∧ HasRoom ⟨traffic.session.now.nanos + nanos⟩

theorem HasTime.mono {traffic : Traffic Unit} {nanos less : Nat} (time : HasTime traffic nanos)
    (le : less ≤ nanos) : HasTime traffic less :=
  ⟨time.1, time.2.mono (Nat.add_le_add_left le _)⟩

theorem HasTime.step {traffic : Traffic Unit} (event : Traffic.Event) {rest : Nat}
    (time : HasTime traffic (event.nanos + rest)) :
    ∃ next, traffic.step event = .ok next ∧ HasTime next rest := by
  obtain ⟨regular, room⟩ := time
  obtain ⟨next, stepped, kept, now⟩ :=
    Traffic.step_returns regular (room.mono (Nat.add_le_add_left (Nat.le_add_right _ rest) _))
  refine ⟨next, stepped, kept, ?_⟩
  rwa [now, Nat.add_assoc]

omit [DecidableEq ι] in
theorem HasTime.advance {neighbour : Neighbour} {who : ι} {move : Neighbour.Move} {rest : Nat}
    (time : HasTime neighbour.traffic ((Event.move who move).nanos + rest)) :
    ∃ next, neighbour.advance move = .ok next ∧ HasTime next.traffic rest := by
  cases move with
  | inner event =>
    obtain ⟨traffic, stepped, later⟩ := HasTime.step event.1 time
    exact ⟨{ neighbour with traffic }, by rw [Neighbour.advance, stepped]; rfl, later⟩
  | send place attempt =>
    obtain ⟨traffic, stepped, later⟩ := HasTime.step (.send place attempt) time
    exact ⟨_, by rw [Neighbour.advance, Neighbour.send, stepped]; rfl, later⟩
  | receive place lost =>
    have still : HasTime neighbour.traffic rest := time.mono (Nat.le_add_left rest _)
    simp only [Neighbour.advance]
    split
    · exact ⟨neighbour, rfl, still⟩
    · rename_i letter found
      split
      · exact ⟨neighbour, rfl, still⟩
      · rename_i answer came
        obtain ⟨traffic, stepped, later⟩ :=
          HasTime.step (.receive letter.place letter.attempt ⟨answer, ⟨0⟩⟩) time
        exact ⟨_, by rw [Neighbour.receive, stepped]; rfl, later⟩

theorem run_returns {events : List (Event ι)}
    (time : ∀ who, HasTime (world.party who).traffic (span events)) :
    ∃ last, world.run link events = .ok last := by
  refine foldlM_returns
    (P := fun world events => ∀ who, HasTime (world.party who).traffic (span events))
    (fun world event events time => ?_) time
  have still : ∀ who, HasTime (world.party who).traffic (span events) :=
    fun who => (time who).mono (Nat.le_add_left _ _)
  have update : ∀ (mover : ι) (next : Neighbour), HasTime next.traffic (span events) →
      ∀ who, HasTime (Function.update world.party mover next who).traffic (span events) := by
    intro mover next later who
    by_cases own : who = mover
    · subst own
      rwa [Function.update_self]
    · rw [Function.update_of_ne own]
      exact still who
  cases event with
  | move mover move =>
    obtain ⟨next, advanced, later⟩ := HasTime.advance (time mover)
    exact ⟨_, by rw [step, advanced]; rfl, update mover next later⟩
  | handle mover place =>
    simp only [step]
    split
    · exact ⟨world, rfl, still⟩
    · exact ⟨_, rfl, update mover _ (still mover)⟩

/-- What a run shows to a party, and what the party did to the store. -/
structure Isolated (link : Link σ) (holds : σ → String → Option StoredObject) (backend : Backend)
    (who : ι) (world last : Neighbourhood ι σ) (events : List (Event ι)) : Prop where
  /-- Without the others' events all comes to the same for the party: its calls and what they
  return, its requests, its metrics and its log, and the objects whose keys begin as its own. -/
  alone : ∃ alone, world.run link (events.filter fun event => event.who = who) = .ok alone ∧
    alone.party who = last.party who ∧
    ∀ key, backend.keyPrefix.toList <+: key.toList → holds alone.store key = holds last.store key
  /-- What it asks of the store is about objects whose keys begin as its own. -/
  letters : ∀ letter ∈ (last.party who).letters, backend.Owns letter.request
  /-- What the store does for it leaves all other objects alone. -/
  spares : ∀ event later, event.who = who → last.step link event = .ok later →
    ∀ key, ¬ backend.keyPrefix.toList <+: key.toList → holds later.store key = holds last.store key

/-- Backends on one bucket, none of whose prefixes begins another, do not notice each other. -/
theorem prefixes_isolate (fenced : Fenced link holds backends bucket) {configs : ι → StoreConfig}
    {start : Instant} {sessions : ι → Session Unit}
    (opened : ∀ who, Session.create (configs who) (backends who) Link.dead () start =
      .ok (sessions who)) (store : σ) (events : List (Event ι)) :
    let world : Neighbourhood ι σ := ⟨store, fun who => { traffic := { session := sessions who } }⟩
    (HasRoom ⟨start.nanos + span events⟩ → ∃ last, world.run link events = .ok last) ∧
    ∀ last, world.run link events = .ok last →
      ∀ who, Isolated link holds (backends who) who world last events := by
  intro world
  have confined : world.Confined backends := by
    intro who
    obtain ⟨at_backend, -⟩ := Session.create_spec (opened who)
    have quiet : ({ session := sessions who } : Traffic Unit).Confined (backends who) :=
      ⟨at_backend, fun _ member => absurd member List.not_mem_nil⟩
    exact ⟨quiet, fun _ member => absurd member List.not_mem_nil⟩
  constructor
  · intro room
    refine run_returns fun who => ?_
    obtain ⟨-, -, -, started, regular⟩ := Session.create_spec (opened who)
    constructor
    · exact regular (room.mono (Nat.le_add_right _ _))
    · rw [started]
      exact room
  · intro last ran who
    have alike : Alike holds backends who world world := ⟨rfl, fun _ _ => rfl⟩
    obtain ⟨alone, ran_alone, party, objects⟩ := alike.run fenced confined ran
    have confined_last := confined.run ran
    constructor
    case alone => exact ⟨alone, ran_alone, party, objects⟩
    case letters => exact (confined_last who).letters
    case spares =>
      intro event later own stepped key foreign
      subst own
      exact fenced.spares confined_last stepped foreign

/-- Two logs on one bucket. -/
def pair (who : Bool) : Backend := Shelf.backend (if who then "log1/" else "log2/") false

/-- While one of them uploads an object, the other one lists its own; its answer is lost once. -/
def pairEvents : List (Event Bool) :=
  [.move true (.inner ⟨.upload ⟨"a", [1], {}⟩, rfl⟩), .move false (.inner ⟨.ask (.list ""), rfl⟩),
    .move true (.inner ⟨.poll 0 false, rfl⟩), .move true (.send 0 .primary),
    .move false (.inner ⟨.poll 0 false, rfl⟩), .move false (.send 0 .primary), .handle true 0,
    .handle false 0, .move false (.receive 0 true), .move false (.send 0 .primary),
    .move true (.receive 0 false), .move false (.inner ⟨.wait 5, rfl⟩), .handle false 1,
    .move false (.receive 1 false), .move true (.inner ⟨.poll 0 false, rfl⟩),
    .move false (.inner ⟨.poll 0 false, rfl⟩)]

theorem prefixes_isolate_on_shelf :
    let link := Shelf.link 2 fun _ => ⟨0⟩
    ∃ (sessions : Bool → Session Unit) (last : Neighbourhood Bool Shelf),
      (∀ who, Session.create { region := "here", bucket := "objects" } (pair who) Link.dead () ⟨0⟩ =
        .ok (sessions who)) ∧
      let world : Neighbourhood Bool Shelf :=
        ⟨{}, fun who => { traffic := { session := sessions who } }⟩
      world.run link pairEvents = .ok last ∧
        ∀ who, Isolated link Shelf.find? (pair who) who world last pairEvents := by
  intro link
  have fenced : Fenced link Shelf.find? pair "objects" := by
    constructor
    case apart => exact Shelf.keepsApart 2 _ "objects"
    case shared => exact fun _ => rfl
    case incomparable =>
      intro who other differs
      cases who <;> cases other
      · exact absurd rfl differs
      · decide
      · decide
      · exact absurd rfl differs
  have room : HasRoom ⟨0 + span pairEvents⟩ := by
    unfold HasRoom
    decide
  have opens : ∀ who, ∃ session, Session.create { region := "here", bucket := "objects" } (pair who)
      Link.dead () ⟨0⟩ = .ok session :=
    fun who => Session.create_returns (room.mono (Nat.zero_le _)) _ (pair who) Link.dead ()
  choose sessions opened using opens
  obtain ⟨returns, shows⟩ := prefixes_isolate fenced opened {} pairEvents
  obtain ⟨last, ran⟩ := returns room
  exact ⟨sessions, last, opened, ran, shows last ran⟩

end Neighbourhood

end HedgedStore
