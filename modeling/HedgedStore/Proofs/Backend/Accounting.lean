import HedgedStore.Proofs.Backend.Turns

/-! The accounts of overlapping operations. At any moment the metrics can be read off the tasks: the
sizes off the uploads whose races are over, in the order in which these ended, and the counts off
all uploads that have begun. -/
namespace HedgedStore.Traffic

open Summary (Fault)
open StoreMetrics (HasRoom)

variable {σ : Type} {traffic later : Traffic σ}

def size (tasks : List Task) (place : Nat) : Nat := (tasks[place]?.bind Task.size?).getD 0

def accounts (traffic : Traffic σ) : Accounts where
  sizes := traffic.completed.map (size traffic.tasks)
  ratios := traffic.tasks.countP Task.isCompressed
  hedges := traffic.tasks.countP Task.madeHedge
  wins := traffic.tasks.countP Task.adoptedHedge

structure Sound (traffic : Traffic σ) : Prop where
  each : ∀ task ∈ traffic.tasks, task.Sound
  shows : traffic.session.metrics.Shows traffic.accounts
  nodup : traffic.completed.Nodup
  mem_iff : ∀ place, place ∈ traffic.completed ↔
    ∃ task, traffic.tasks[place]? = some task ∧ task.isCompleted = true
  count : traffic.completed.length = traffic.tasks.countP Task.isCompleted

/-! One task goes on. -/

theorem move_eq_ok {place : Nat} {turn : Task → Task × List Effect}
    (moved : traffic.move place turn = .ok later) :
    later = traffic ∨
      ∃ task session, traffic.tasks[place]? = some task ∧
        ((turn task).2.map fun effect => (0, effect)).foldlM Session.happen traffic.session =
          .ok session ∧
        later = { session
                  tasks := traffic.tasks.set place (turn task).1
                  completed := traffic.completed ++
                    if !task.isCompleted && (turn task).1.isCompleted then [place] else [] } := by
  unfold move at moved
  split at moved
  · rename_i task found
    obtain ⟨session, happened, moved⟩ := bind_eq_ok.mp moved
    exact .inr ⟨task, session, found, happened, (Except.ok.inj moved).symm⟩
  · exact .inl (Except.ok.inj moved).symm

theorem move_of_happen {place : Nat} {turn : Task → Task × List Effect} {task : Task}
    {session : Session σ} (found : traffic.tasks[place]? = some task)
    (happened : ((turn task).2.map fun effect => (0, effect)).foldlM Session.happen
      traffic.session = .ok session) :
    traffic.move place turn = .ok {
      session
      tasks := traffic.tasks.set place (turn task).1
      completed := traffic.completed ++
        if !task.isCompleted && (turn task).1.isCompleted then [place] else [] } := by
  simp only [move, found, happened, ok_bind, pure_eq_ok]

section Turn

variable {place : Nat} {task next : Task} {effects : List Effect}

theorem Sound.size_set (sound : traffic.Sound) (found : traffic.tasks[place]? = some task)
    (turns : task.Turns next effects) {other : Nat} (member : other ∈ traffic.completed) :
    size (traffic.tasks.set place next) other = size traffic.tasks other := by
  by_cases own : other = place
  · subst own
    obtain ⟨present, there, completed⟩ := (sound.mem_iff other).mp member
    obtain rfl := Option.some.inj (there.symm.trans found)
    have bound := (List.getElem?_eq_some_iff.mp found).1
    rw [size, size, List.getElem?_set_self bound, found, Option.bind_some, Option.bind_some,
      (turns.settled completed).2]
  · rw [size, size, List.getElem?_set_ne (Ne.symm own)]

theorem Sound.accounts_set (sound : traffic.Sound) (found : traffic.tasks[place]? = some task)
    (turns : task.Turns next effects) (session : Session σ) :
    ({ session
       tasks := traffic.tasks.set place next
       completed := traffic.completed ++
        if !task.isCompleted && next.isCompleted then [place] else [] } : Traffic σ).accounts =
      traffic.accounts.after effects := by
  have bound := (List.getElem?_eq_some_iff.mp found).1
  simp only [accounts, Accounts.after, Accounts.mk.injEq]
  refine ⟨?_, ?_, ?_, ?_⟩
  -- A race that is over keeps its size, and one that ends now is the last in the list.
  · rw [List.map_append, turns.sizes]
    refine congrArg₂ _ (List.map_congr_left fun other member => ?_) ?_
    · exact sound.size_set found turns member
    · split
      · rename_i ended
        obtain ⟨bytes, sized⟩ := next.size_of_completed (by simp_all)
        rw [List.map_singleton, size, List.getElem?_set_self bound, Option.bind_some, sized]
        rfl
      · rfl
  · have sum := Hedge.Races.countP_set_add Task.isCompressed next found
    have ratios := turns.ratios
    omega
  · have sum := Hedge.Races.countP_set_add Task.madeHedge next found
    have hedges := turns.hedges
    omega
  · have sum := Hedge.Races.countP_set_add Task.adoptedHedge next found
    have wins := turns.wins
    omega

theorem Sound.set (sound : traffic.Sound) (found : traffic.tasks[place]? = some task)
    (turns : task.Turns next effects) (kept : next.Sound) {session : Session σ}
    (happened : (effects.map fun effect => (0, effect)).foldlM Session.happen traffic.session =
      .ok session) :
    ({ session
       tasks := traffic.tasks.set place next
       completed := traffic.completed ++
        if !task.isCompleted && next.isCompleted then [place] else [] } : Traffic σ).Sound := by
  have bound := (List.getElem?_eq_some_iff.mp found).1
  have own : place ∈ traffic.completed ↔ task.isCompleted = true := by
    rw [sound.mem_iff place, found]
    simp
  constructor
  case each =>
    intro other member
    rcases List.mem_or_eq_of_mem_set member with old | rfl
    · exact sound.each other old
    · exact kept
  case shows =>
    rw [sound.accounts_set found turns session]
    exact Session.foldlM_happen_shows sound.shows happened
  case nodup =>
    refine sound.nodup.append ?_ ?_
    · split <;> simp
    · intro other old new
      split at new
      · rename_i ended
        obtain rfl := List.mem_singleton.mp new
        rw [own.mp old] at ended
        cases ended
      · cases new
  case mem_iff =>
    intro other
    by_cases same : other = place
    · subst same
      have settled := turns.settled
      rw [List.mem_append, own, List.getElem?_set_self bound]
      cases before : task.isCompleted <;> cases after : next.isCompleted <;> simp_all
    · rw [List.mem_append, sound.mem_iff other, List.getElem?_set_ne (Ne.symm same)]
      split <;> simp [same]
  case count =>
    have sum := Hedge.Races.countP_set_add Task.isCompleted next found
    have before := sound.count
    have settled := turns.settled
    rw [List.length_append]
    cases old : task.isCompleted <;> cases new : next.isCompleted <;> simp_all

end Turn

theorem Sound.move (sound : traffic.Sound) {place : Nat} {turn : Task → Task × List Effect}
    (keeps : ∀ task : Task, task.Sound →
      (turn task).1.Sound ∧ task.Turns (turn task).1 (turn task).2)
    (moved : traffic.move place turn = .ok later) : later.Sound := by
  rcases move_eq_ok moved with rfl | ⟨task, session, found, happened, rfl⟩
  · exact sound
  · obtain ⟨kept, turns⟩ := keeps task (sound.each task (List.mem_of_getElem? found))
    exact sound.set found turns kept happened

theorem Sound.enter (sound : traffic.Sound) {fresh : Task} (kept : fresh.Sound)
    (unbegun : ∀ sent, fresh ≠ .post sent) :
    ({ traffic with tasks := traffic.tasks ++ [fresh] } : Traffic σ).Sound := by
  have idle : fresh.isCompleted = false ∧ fresh.isCompressed = false ∧ fresh.madeHedge = false ∧
      fresh.adoptedHedge = false := by
    cases fresh with
    | post sent => exact absurd rfl (unbegun sent)
    | order | refused | inquiry | dropped => exact ⟨rfl, rfl, rfl, rfl⟩
  obtain ⟨incomplete, uncompressed, unmade, unadopted⟩ := idle
  -- The new task comes last, behind every place at which a race is over.
  have within : ∀ place ∈ traffic.completed,
      (traffic.tasks ++ [fresh])[place]? = traffic.tasks[place]? := by
    intro place member
    obtain ⟨task, found, -⟩ := (sound.mem_iff place).mp member
    exact List.getElem?_append_left (List.getElem?_eq_some_iff.mp found).1
  have same : ({ traffic with tasks := traffic.tasks ++ [fresh] } : Traffic σ).accounts =
      traffic.accounts := by
    simp only [accounts, Accounts.mk.injEq, List.countP_append, List.countP_singleton,
      uncompressed, unmade, unadopted]
    refine ⟨List.map_congr_left fun place member => ?_, rfl, rfl, rfl⟩
    rw [size, size, within place member]
  constructor
  case each =>
    intro task member
    rcases List.mem_append.mp member with old | new
    · exact sound.each task old
    · exact List.mem_singleton.mp new ▸ kept
  case shows => exact same ▸ sound.shows
  case nodup => exact sound.nodup
  case mem_iff =>
    intro place
    constructor
    · intro member
      rw [within place member]
      exact (sound.mem_iff place).mp member
    · rintro ⟨task, found, completed⟩
      rw [List.getElem?_append] at found
      split at found
      · exact (sound.mem_iff place).mpr ⟨task, found, completed⟩
      · obtain rfl := List.mem_singleton.mp (List.mem_of_getElem? found)
        rw [incomplete] at completed
        cases completed
  case count =>
    rw [List.countP_append, List.countP_singleton, incomplete]
    exact sound.count

/-! A request goes on. That changes none of the accounts. -/

theorem move_agrees {place : Nat} {turn : Task → Task × List Effect}
    (aloof : ∀ task, traffic.tasks[place]? = some task →
      ∀ effect ∈ (turn task).2, effect.isAloof = true)
    (moved : traffic.move place turn = .ok later) :
    later.session.metrics.Agrees traffic.session.metrics := by
  rcases move_eq_ok moved with rfl | ⟨task, session, found, happened, rfl⟩
  · exact ⟨rfl, rfl, rfl, rfl⟩
  · exact Session.foldlM_happen_agrees (aloof task found) happened

section Request

variable {place : Nat} {attempt : Hedge.Attempt}

theorem Sound.correspond (sound : traffic.Sound)
    {turn : ∀ α : Type, Errand α → Errand α × List Measurement}
    (aloof : ∀ α errand, ∀ measurement ∈ (turn α errand).2,
      (Effect.measure measurement).isAloof = true)
    (moved : traffic.move place (Task.correspond attempt turn) = .ok later) :
    later.Sound ∧ later.session.metrics.Agrees traffic.session.metrics := by
  constructor
  · refine sound.move (fun task kept => ?_) moved
    obtain ⟨next, turns, -⟩ := Task.correspond_sound kept attempt aloof
    exact ⟨next, turns⟩
  · refine move_agrees (fun task found => ?_) moved
    have kept := sound.each task (List.mem_of_getElem? found)
    exact (Task.correspond_sound kept attempt aloof).2.2

theorem Sound.send (sound : traffic.Sound)
    (stepped : traffic.step (.send place attempt) = .ok later) :
    later.Sound ∧ later.session.metrics.Agrees traffic.session.metrics := by
  have moved : traffic.move place (Task.correspond attempt fun _ errand =>
    (errand.send traffic.session.now, [])) = .ok later := stepped
  exact sound.correspond (fun _ _ _ mem => absurd mem List.not_mem_nil) moved

theorem Sound.receive (sound : traffic.Sound) {exchange : Exchange}
    (stepped : traffic.step (.receive place attempt exchange) = .ok later) :
    later.Sound ∧ later.session.metrics.Agrees traffic.session.metrics :=
  sound.correspond (fun _ errand => errand.receive_aloof traffic.session.now exchange) stepped

theorem Sound.fail (sound : traffic.Sound) {why : Refusal}
    (stepped : traffic.step (.fail place attempt why) = .ok later) :
    later.Sound ∧ later.session.metrics.Agrees traffic.session.metrics := by
  have moved : traffic.move place (Task.correspond attempt fun _ errand =>
    (errand.fail why, [])) = .ok later := stepped
  exact sound.correspond (fun _ _ _ mem => absurd mem List.not_mem_nil) moved

end Request

/-! What one event keeps, and so every run. No task forgets what it was called with. -/

def Event.demand? : Event → Option Demand
  | upload placed => some (.upload placed)
  | ask query => some (.ask query)
  | wait _ | poll _ _ | drop _ | send _ _ | receive _ _ _ | fail _ _ _ => none

theorem Sound.move_demands (sound : traffic.Sound) {place : Nat} {turn : Task → Task × List Effect}
    (keeps : ∀ task : Task, task.Sound → (turn task).1.demand = task.demand)
    (moved : traffic.move place turn = .ok later) :
    later.tasks.map Task.demand = traffic.tasks.map Task.demand := by
  rcases move_eq_ok moved with rfl | ⟨task, session, found, happened, rfl⟩
  · rfl
  · exact map_set_of_eq found (keeps task (sound.each task (List.mem_of_getElem? found)))

theorem Sound.correspond_demands (sound : traffic.Sound) {place : Nat} {attempt : Hedge.Attempt}
    {turn : ∀ α : Type, Errand α → Errand α × List Measurement}
    (moved : traffic.move place (Task.correspond attempt turn) = .ok later) :
    later.tasks.map Task.demand = traffic.tasks.map Task.demand :=
  sound.move_demands (fun task _ => task.correspond_demand attempt turn) moved

theorem Sound.step_demands (sound : traffic.Sound) {event : Event}
    (stepped : traffic.step event = .ok later) :
    later.tasks.map Task.demand = traffic.tasks.map Task.demand ++ event.demand?.toList := by
  cases event with
  | wait nanos =>
    obtain rfl := Except.ok.inj stepped
    exact (List.append_nil _).symm
  | upload placed =>
    obtain rfl := Except.ok.inj stepped
    exact List.map_append
  | ask query =>
    obtain rfl := Except.ok.inj stepped
    exact List.map_append
  | poll place fired =>
    refine (sound.move_demands (fun task kept => ?_) stepped).trans (List.append_nil _).symm
    exact (Task.poll_sound _ kept _ fired).2.demand
  | drop place =>
    refine (sound.move_demands (fun task kept => ?_) stepped).trans (List.append_nil _).symm
    exact (Task.drop_sound _ kept _).2.demand
  | send | receive | fail =>
    simp only [Traffic.step] at stepped
    exact (sound.correspond_demands stepped).trans (List.append_nil _).symm

theorem Sound.step (sound : traffic.Sound) {event : Event}
    (stepped : traffic.step event = .ok later) : later.Sound := by
  cases event with
  | wait nanos =>
    obtain rfl := Except.ok.inj stepped
    exact ⟨sound.each, sound.shows, sound.nodup, sound.mem_iff, sound.count⟩
  | upload placed =>
    obtain rfl := Except.ok.inj stepped
    refine sound.enter (Task.sound_order placed) fun sent same => ?_
    cases same
  | ask query =>
    obtain rfl := Except.ok.inj stepped
    refine sound.enter (Task.sound_inquiry fun failure failed => ?_) fun sent same => ?_
    · cases failed
    · cases same
  | poll place fired => exact sound.move (fun _ kept => Task.poll_sound _ kept _ fired) stepped
  | drop place => exact sound.move (fun _ kept => Task.drop_sound _ kept _) stepped
  | send place attempt => exact (sound.send stepped).1
  | receive place attempt exchange => exact (sound.receive stepped).1
  | fail place attempt why => exact (sound.fail stepped).1

theorem Sound.foldlM_step (sound : traffic.Sound) {events : List Event}
    (ran : events.foldlM Traffic.step traffic = .ok later) :
    later.Sound ∧
      later.tasks.map Task.demand =
        traffic.tasks.map Task.demand ++ events.filterMap Event.demand? := by
  induction events generalizing traffic with
  | nil =>
    obtain rfl := Except.ok.inj ran
    exact ⟨sound, (List.append_nil _).symm⟩
  | cons event events ih =>
    obtain ⟨mid, stepped, rest⟩ := bind_eq_ok.mp (List.foldlM_cons.symm.trans ran)
    obtain ⟨kept, called⟩ := ih (sound.step stepped) rest
    refine ⟨kept, called.trans ?_⟩
    rw [sound.step_demands stepped, List.append_assoc]
    cases event <;> rfl

theorem sound_idle {config : StoreConfig} {backend : Backend} {link : Link σ} {store : σ}
    {start : Instant} {session : Session σ}
    (opened : Session.create config backend link store start = .ok session) :
    ({ session } : Traffic σ).Sound := by
  obtain ⟨metrics, created, opened⟩ := bind_eq_ok.mp opened
  obtain rfl := Except.ok.inj opened
  constructor
  case each => exact fun task mem => absurd mem List.not_mem_nil
  case shows => exact StoreMetrics.create_shows created
  case nodup => exact List.nodup_nil
  case mem_iff => simp
  case count => rfl

/-! Every run comes to its end while the clock can count that far. -/

namespace Event

def nanos : Event → Nat
  | wait nanos => nanos
  | _ => 0

def place? : Event → Option Nat
  | wait _ | upload _ | ask _ => none
  | poll place _ | drop place | send place _ | receive place _ _ | fail place _ _ => some place

end Event

def span (events : List Event) : Nat := (events.map Event.nanos).sum

theorem move_returns (regular : traffic.session.metrics.Regular)
    (room : HasRoom traffic.session.now) (place : Nat) (turn : Task → Task × List Effect) :
    ∃ later, traffic.move place turn = .ok later ∧ later.session.metrics.Regular ∧
      later.session.now = traffic.session.now := by
  cases found : traffic.tasks[place]? with
  | none =>
    refine ⟨traffic, ?_, regular, rfl⟩
    rw [move, found]
  | some task =>
    have atOnce : ∀ effect ∈ (turn task).2.map fun effect => (0, effect), effect.1 ≤ 0 := by
      intro effect member
      obtain ⟨-, -, rfl⟩ := List.mem_map.mp member
      exact Nat.le_refl 0
    obtain ⟨session, happened, kept⟩ := Session.foldlM_happen_returns regular atOnce room
    obtain ⟨-, -, now⟩ := Session.foldlM_happen_keeps happened
    exact ⟨_, move_of_happen found happened, kept, now⟩

theorem step_returns (regular : traffic.session.metrics.Regular) {event : Event}
    (room : HasRoom ⟨traffic.session.now.nanos + event.nanos⟩) :
    ∃ later, traffic.step event = .ok later ∧ later.session.metrics.Regular ∧
      later.session.now = ⟨traffic.session.now.nanos + event.nanos⟩ := by
  cases event with
  | wait nanos => exact ⟨_, rfl, regular, rfl⟩
  | upload placed => exact ⟨_, rfl, regular, rfl⟩
  | ask query => exact ⟨_, rfl, regular, rfl⟩
  | poll place fired => exact move_returns regular room place _
  | drop place => exact move_returns regular room place _
  | send place attempt => exact move_returns regular room place _
  | receive place attempt exchange => exact move_returns regular room place _
  | fail place attempt why => exact move_returns regular room place _

theorem foldlM_step_returns (regular : traffic.session.metrics.Regular) {events : List Event}
    (room : HasRoom ⟨traffic.session.now.nanos + span events⟩) :
    ∃ later, events.foldlM step traffic = .ok later := by
  induction events generalizing traffic with
  | nil => exact ⟨traffic, rfl⟩
  | cons event events ih =>
    have total : span (event :: events) = event.nanos + span events := by
      rw [span, List.map_cons, List.sum_cons, span]
    have room_now : HasRoom ⟨traffic.session.now.nanos + event.nanos⟩ :=
      room.mono (by simp only [total]; omega)
    obtain ⟨mid, stepped, kept, now⟩ := step_returns regular room_now
    obtain ⟨later, rest⟩ := ih kept (by rw [now]; exact room.mono (by simp only [total]; omega))
    exact ⟨later, by rw [List.foldlM_cons, stepped, ok_bind, rest]⟩

/-! What is not an upload leaves no trace in the accounts. -/

/-- The operation that goes on, if any does, is not an upload. -/
def Event.SparesUploads (traffic : Traffic σ) (event : Event) : Prop :=
  ∀ place task, event.place? = some place → traffic.tasks[place]? = some task →
    task.isUpload = false

theorem step_agrees (sound : traffic.Sound) {event : Event} (spares : event.SparesUploads traffic)
    (stepped : traffic.step event = .ok later) :
    later.session.metrics.Agrees traffic.session.metrics := by
  cases event with
  | wait nanos =>
    obtain rfl := Except.ok.inj stepped
    exact ⟨rfl, rfl, rfl, rfl⟩
  | upload placed =>
    obtain rfl := Except.ok.inj stepped
    exact ⟨rfl, rfl, rfl, rfl⟩
  | ask query =>
    obtain rfl := Except.ok.inj stepped
    exact ⟨rfl, rfl, rfl, rfl⟩
  | poll place fired =>
    refine move_agrees (fun task found => ?_) stepped
    exact task.poll_aloof _ (spares place task rfl found) _ fired
  | drop place =>
    refine move_agrees (fun task found => ?_) stepped
    exact task.drop_aloof _ (spares place task rfl found) _
  | send place attempt => exact (sound.send stepped).2
  | receive place attempt exchange => exact (sound.receive stepped).2
  | fail place attempt why => exact (sound.fail stepped).2

/-- What has come of the calls of a run: what is read off the metrics, whenever they are read, and
what has been returned. -/
structure Accounted (traffic : Traffic σ) (events : List Event) : Prop where
  called : traffic.tasks.map Task.demand = events.filterMap Event.demand?
  /-- An upload in its race sends the data that it was called with, compressed if it was to be. -/
  bodies : ∀ sent, .post sent ∈ traffic.tasks → sent.upload.request.body = sent.order.wireBody
  /-- No upload fails before its race. -/
  unrefused : ∀ placed why, .refused placed why ∉ traffic.tasks
  /-- No race ends twice. -/
  nodup : traffic.completed.Nodup
  mem_completed : ∀ place, place ∈ traffic.completed ↔
    ∃ task, traffic.tasks[place]? = some task ∧ task.isCompleted = true
  sizes : ∀ now shown later,
    traffic.session.metrics.uploadSizes.snapshot now = .ok (shown, later) →
      shown.count = traffic.tasks.countP Task.isCompleted ∧
        shown.sum = Accounts.sum (traffic.completed.map (size traffic.tasks))
  ratios : ∀ now shown later,
    traffic.session.metrics.compressRatios.snapshot now = .ok (shown, later) →
      shown.count = traffic.tasks.countP Task.isCompressed
  hedges : traffic.session.metrics.hedges.total = traffic.tasks.countP Task.madeHedge
  wins : traffic.session.metrics.hedgeWins.total = traffic.tasks.countP Task.adoptedHedge
  uncompressing : ∀ task ∈ traffic.tasks, ∀ failure, task.failure? = some failure →
    failure.isCompress = false

theorem Sound.accounted (sound : traffic.Sound) {events : List Event}
    (called : traffic.tasks.map Task.demand = events.filterMap Event.demand?) :
    traffic.Accounted events := by
  constructor
  case called => exact called
  case bodies => exact fun sent member => (sound.each _ member).body sent rfl
  case unrefused => exact fun placed why member => (sound.each _ member).unrefused placed why rfl
  case nodup => exact sound.nodup
  case mem_completed => exact sound.mem_iff
  case sizes =>
    intro now shown later read
    obtain ⟨count, sum, -, -⟩ := Summary.snapshot_totals read
    refine ⟨?_, sum.trans sound.shows.sum⟩
    rw [count, sound.shows.sizes, accounts, List.length_map, sound.count]
  case ratios =>
    intro now shown later read
    obtain ⟨count, -, -, -⟩ := Summary.snapshot_totals read
    exact count.trans sound.shows.ratios
  case hedges => exact sound.shows.hedges
  case wins => exact sound.shows.wins
  case uncompressing => exact fun task member => (sound.each task member).uncompressing

/-- Whatever goes on at a backend, in whatever order its operations overlap: their uploads are
accounted for, and nothing else is. And all of it goes on while the clock can count that far. -/
theorem uploads_accounted (config : StoreConfig) (backend : Backend) (link : Link σ) (store : σ)
    (start : Instant) (events : List Event) :
    (HasRoom ⟨start.nanos + span events⟩ →
      ∃ traffic, run config backend link store start events = .ok traffic) ∧
    ∀ traffic, run config backend link store start events = .ok traffic →
      traffic.Accounted events ∧
        ∀ event later, event.SparesUploads traffic → traffic.step event = .ok later →
          later.session.metrics.Agrees traffic.session.metrics := by
  constructor
  · intro room
    have room_now : HasRoom start := room.mono (Nat.le_add_right _ _)
    obtain ⟨session, opened⟩ := Session.create_returns room_now config backend link store
    obtain ⟨-, -, -, started, regular⟩ := Session.create_spec opened
    have idle : ({ session } : Traffic σ).session.metrics.Regular := regular room_now
    obtain ⟨traffic, ran⟩ := foldlM_step_returns idle (by rw [started]; exact room)
    exact ⟨traffic, by rw [run, opened, ok_bind, ran]⟩
  · intro traffic ran
    obtain ⟨session, opened, ran⟩ := bind_eq_ok.mp ran
    obtain ⟨sound, called⟩ := (sound_idle opened).foldlM_step ran
    exact ⟨sound.accounted called, fun event later => step_agrees sound⟩

end HedgedStore.Traffic
