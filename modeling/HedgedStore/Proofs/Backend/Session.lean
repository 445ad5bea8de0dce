import HedgedStore.Backend.Session
import HedgedStore.Proofs.Backend.Prepared
import HedgedStore.Proofs.Hedge.Outcome
import HedgedStore.Proofs.Metrics.Timely
import HedgedStore.Proofs.Steps
import HedgedStore.Proofs.Store.Contract

/-! What the calls of a session come to. A call's result is that of its requests; the measurements
and events that it leaves behind happen before its time is over and change neither the store nor
what comes of later calls. The only thing that can go wrong with them is that the clock ends. -/
namespace HedgedStore.Session

open Summary (Fault)
open StoreMetrics (HasRoom)

variable {σ α : Type} {session next : Session σ}

/-- What of a session matters to its later calls. -/
structure Passed (session next : Session σ) (store : σ) (takes : Nat) : Prop where
  backend : next.backend = session.backend
  link : next.link = session.link
  store : next.store = store
  now : next.now = ⟨session.now.nanos + takes⟩

theorem create_returns {now : Instant} (room : HasRoom now) (config : StoreConfig)
    (backend : Backend) (link : Link σ) (store : σ) :
    ∃ session, Session.create config backend link store now = .ok session := by
  obtain ⟨metrics, created, -⟩ := StoreMetrics.create_regular room
  unfold Session.create
  rw [created]
  exact ⟨_, rfl⟩

theorem create_spec {config : StoreConfig} {backend : Backend} {link : Link σ} {store : σ}
    {now : Instant} (opened : Session.create config backend link store now = .ok session) :
    session.backend = backend ∧ session.link = link ∧ session.store = store ∧
      session.now = now ∧ (HasRoom now → session.metrics.Regular) := by
  unfold Session.create at opened
  cases created : StoreMetrics.create now with
  | error fault =>
    rw [created] at opened
    cases opened
  | ok metrics =>
    rw [created] at opened
    obtain rfl := Except.ok.inj opened
    refine ⟨rfl, rfl, rfl, rfl, fun room => ?_⟩
    obtain ⟨regular_metrics, creates, regular⟩ := StoreMetrics.create_regular room
    obtain rfl := Except.ok.inj (created.symm.trans creates)
    exact regular

/-! Effects of a call. -/

theorem happen_keeps {effect : Nat × Effect} (happened : session.happen effect = .ok next) :
    next.backend = session.backend ∧ next.link = session.link ∧ next.now = session.now := by
  obtain ⟨time, effect⟩ := effect
  cases effect with
  | tell event =>
    obtain rfl := Except.ok.inj happened
    exact ⟨rfl, rfl, rfl⟩
  | measure measurement =>
    obtain ⟨metrics, -, happened⟩ := bind_eq_ok.mp happened
    obtain rfl := Except.ok.inj happened
    exact ⟨rfl, rfl, rfl⟩

theorem happen_returns (regular : session.metrics.Regular) {effect : Nat × Effect}
    (room : HasRoom ⟨session.now.nanos + effect.1⟩) :
    ∃ next, session.happen effect = .ok next ∧ next.metrics.Regular := by
  obtain ⟨time, effect⟩ := effect
  cases effect with
  | tell event => exact ⟨_, rfl, regular⟩
  | measure measurement =>
    obtain ⟨metrics, measured, later⟩ :=
      StoreMetrics.measure_regular room regular session.draws.next.1 measurement
    refine ⟨{ session with draws := session.draws.next.2, metrics }, ?_, later⟩
    simp only [happen, measured, ok_bind, pure_eq_ok]

theorem foldlM_happen_keeps {effects : Timed} (happened : effects.foldlM happen session = .ok next) :
    next.backend = session.backend ∧ next.link = session.link ∧ next.now = session.now := by
  induction effects generalizing session with
  | nil =>
    obtain rfl := Except.ok.inj happened
    exact ⟨rfl, rfl, rfl⟩
  | cons effect effects ih =>
    obtain ⟨mid, first, rest⟩ := bind_eq_ok.mp (List.foldlM_cons.symm.trans happened)
    obtain ⟨backend, link, now⟩ := ih rest
    obtain ⟨backend_mid, link_mid, now_mid⟩ := happen_keeps first
    exact ⟨backend.trans backend_mid, link.trans link_mid, now.trans now_mid⟩

theorem foldlM_happen_returns (regular : session.metrics.Regular) {effects : Timed} {span : Nat}
    (inTime : ∀ effect ∈ effects, effect.1 ≤ span)
    (room : HasRoom ⟨session.now.nanos + span⟩) :
    ∃ next, effects.foldlM happen session = .ok next ∧ next.metrics.Regular := by
  induction effects generalizing session with
  | nil => exact ⟨session, rfl, regular⟩
  | cons effect effects ih =>
    have within : effect.1 ≤ span := inTime effect (by simp)
    have room_now : HasRoom ⟨session.now.nanos + effect.1⟩ :=
      room.mono (Nat.add_le_add_left within _)
    obtain ⟨mid, first, regular_mid⟩ := happen_returns regular room_now
    obtain ⟨-, -, now⟩ := happen_keeps first
    obtain ⟨next, rest, regular_next⟩ := ih regular_mid
      (fun later member => inTime later (by simp [member])) (now ▸ room)
    exact ⟨next, by rw [List.foldlM_cons, first, ok_bind, rest], regular_next⟩

theorem pass_keeps {store : σ} {takes : Nat} {effects : Timed}
    (passed : session.pass store takes effects = .ok next) : session.Passed next store takes := by
  obtain ⟨mid, happened, passed⟩ := bind_eq_ok.mp passed
  obtain rfl := Except.ok.inj passed
  obtain ⟨backend, link, now⟩ := foldlM_happen_keeps happened
  exact ⟨backend, link, rfl, by rw [now]⟩

theorem pass_returns (regular : session.metrics.Regular) (store : σ) (takes : Nat) {span : Nat}
    {effects : Timed} (inTime : ∀ effect ∈ effects, effect.1 ≤ span)
    (room : HasRoom ⟨session.now.nanos + span⟩) :
    ∃ next, session.pass store takes effects = .ok next ∧ next.metrics.Regular := by
  obtain ⟨mid, happened, later⟩ := foldlM_happen_returns regular inTime room
  refine ⟨{ mid with store, now := ⟨mid.now.nanos + takes⟩ }, ?_, later⟩
  simp only [pass, happened, ok_bind, pure_eq_ok]

/-- Where a run of a call ends: whatever it returns is this, and it does return while the clock can
count to its end. -/
structure Ends (session : Session σ) (run : Except Fault (α × Session σ)) (result : α) (store : σ)
    (takes : Nat) : Prop where
  spec : ∀ returned next, run = .ok (returned, next) →
    returned = result ∧ session.Passed next store takes
  returns : session.metrics.Regular → HasRoom ⟨session.now.nanos + takes⟩ →
    ∃ next, run = .ok (result, next) ∧ next.metrics.Regular

theorem ends_of_pass {result : α} {store : σ} {takes : Nat} {effects : Timed}
    (inTime : ∀ effect ∈ effects, effect.1 ≤ takes) :
    session.Ends (do return (result, ← session.pass store takes effects)) result store takes where
  spec := by
    intro returned next ran
    obtain ⟨last, passed, ran⟩ := bind_eq_ok.mp ran
    obtain ⟨rfl, rfl⟩ := Prod.mk.inj (Except.ok.inj ran)
    exact ⟨rfl, pass_keeps passed⟩
  returns := by
    intro regular room
    obtain ⟨next, passed, later⟩ := pass_returns regular store takes inTime room
    exact ⟨next, by rw [passed, ok_bind, pure_eq_ok], later⟩

/-! Calls that send one request. -/

theorem answered_times (watch : Stopwatch) (method : Method) (start : Nat)
    (exchanges : List Exchange) (result : Except Refusal α) {effect : Nat × Effect}
    (member : effect ∈ answered watch method start exchanges) :
    effect.1 ≤ start + (⟨result, exchanges⟩ : Course α).takes := by
  induction exchanges generalizing watch start with
  | nil => cases member
  | cons exchange rest ih =>
    rw [Link.takes_cons]
    simp only [answered, List.mem_append, List.mem_map] at member
    rcases member with ⟨measurement, -, rfl⟩ | later
    · exact Nat.add_le_add_left (Nat.le_add_right _ _) _
    · have bound := ih _ _ later
      omega

theorem call_ends {β : Type} (request : Request) (read : Answer → Verdict β)
    (conclude : Except Refusal β → Except Failure α × List Effect) {course : Course β} {store : σ}
    (settled : session.link.settle session.backend.maxAttempts read request session.store =
      (course, store)) :
    session.Ends (session.call request read conclude) (conclude course.result).1 store
      course.takes := by
  have same : session.call request read conclude = (do
      return ((conclude course.result).1, ← session.pass store course.takes
        (answered {} request.method 0 course.exchanges ++
          (conclude course.result).2.map fun effect => (course.takes, effect)))) := by
    simp only [call, settled]
  rw [same]
  refine ends_of_pass fun effect member => ?_
  rcases List.mem_append.mp member with answer | last
  · have bound := answered_times {} request.method 0 course.exchanges course.result answer
    rwa [Nat.zero_add] at bound
  · obtain ⟨more, -, rfl⟩ := List.mem_map.mp last
    exact Nat.le_refl _

/-! Uploads. -/

/-- Following a race gives no other result than that of its attempts, and all that happens happens
at times at which something is due. -/
theorem follow_spec (upload : Upload) (created : upload.phase = .created)
    (primary hedge : Hedge.Timing (Except Failure Unit)) (same : hedge.result = primary.result) :
    (∀ outcome, (follow upload primary hedge).1.phase = .finished outcome →
      outcome.result = primary.result) ∧
    ∀ effect ∈ (follow upload primary hedge).2,
      effect.1 ∈ Hedge.dueTimes upload.hedgeDelay.nanos primary hedge none := by
  have steps : ∀ (times : List Nat) (due : List Nat) (state : Upload × Timed), times ⊆ due →
      (∀ outcome, state.1.phase = .finished outcome → outcome.result = primary.result) →
      (∀ effect ∈ state.2, effect.1 ∈ due) →
      let state' := times.foldl (fun state now =>
        let polled := state.1.poll (Hedge.Run.view upload.hedgeDelay.nanos primary hedge now) ⟨now⟩
        (polled.1, state.2 ++ polled.2.map fun effect => (now, effect))) state
      (∀ outcome, state'.1.phase = .finished outcome → outcome.result = primary.result) ∧
        ∀ effect ∈ state'.2, effect.1 ∈ due := by
    intro times due
    induction times with
    | nil => exact fun state _ decided effects => ⟨decided, effects⟩
    | cons now times ih =>
      intro state subset decided effects
      obtain ⟨now_due, times_due⟩ := List.cons_subset.mp subset
      refine ih _ times_due ?_ ?_
      · intro outcome ended
        rcases Hedge.Phase.poll_outcome ended with before | first | again | second
        · exact decided outcome before
        · exact Hedge.at_result first
        · exact Hedge.at_result again
        · exact (Hedge.at_result second).trans same
      · intro effect member
        rcases List.mem_append.mp member with old | new
        · exact effects effect old
        · obtain ⟨more, -, rfl⟩ := List.mem_map.mp new
          exact now_due
  refine steps _ _ (upload, []) (List.Subset.refl _) ?_ nofun
  intro outcome ended
  rw [show upload.phase = _ from ended] at created
  cases created

/-- The time of the last effect. -/
def lastTime (effects : Timed) : Nat := ((effects.map (·.1)).max?).getD 0

theorem le_lastTime {effects : Timed} {effect : Nat × Effect} (member : effect ∈ effects) :
    effect.1 ≤ lastTime effects :=
  List.le_max?_getD_of_mem (List.mem_map_of_mem member)

theorem lastTime_le {effects : Timed} {bound : Nat} (within : ∀ effect ∈ effects, effect.1 ≤ bound) :
    lastTime effects ≤ bound := by
  cases longest : (effects.map (·.1)).max? with
  | none => simp [lastTime, longest]
  | some time =>
    obtain ⟨effect, member, rfl⟩ := List.mem_map.mp (List.max?_mem longest)
    rw [lastTime, longest]
    exact within effect member

/-- What an upload tells and measures before it is followed to its end, and in the course of that. -/
def uploadEffects (first : List Effect) (delay : Nat) (primary hedge : Course Unit) (told : Timed) :
    Timed :=
  let answers := answered {} .put 0 primary.exchanges ++ answered {} .put delay hedge.exchanges
  (first.map fun effect => (0, effect)) ++
    (answers.filter (fun effect => effect.1 ≤ lastTime told) ++ told).mergeSort
      fun a b => a.1 ≤ b.1

/-- How the hedge goes if there is one. -/
def hedgeTiming (upload : Upload) (primary hedge : Course Unit) :
    Hedge.Timing (Except Failure Unit) :=
  { timing upload hedge with
    after := if upload.hedgeDelay.nanos < primary.takes then some hedge.takes else none }

theorem upload_eq {key : String} {data : Bytes} {options : UploadOptions}
    {primary hedge : Course Unit} {mid last : σ}
    (first : session.link.settle session.backend.maxAttempts Answer.accepted
      (session.backend.prepared key data options).request session.store = (primary, mid))
    (second : (if session.backend.hedgeDelay.nanos < primary.takes then
        session.link.settle session.backend.maxAttempts Answer.accepted
          (session.backend.prepared key data options).request mid
      else (({ result := primary.result, exchanges := [] } : Course Unit), mid)) = (hedge, last)) :
    session.upload key data options =
      let upload := session.backend.prepared key data options
      let followed := follow upload (timing upload primary) (hedgeTiming upload primary hedge)
      do
        return (followed.1.result?.getD (timing upload primary).result,
          ← session.pass last (lastTime followed.2)
            (uploadEffects (options.measured data) session.backend.hedgeDelay.nanos primary hedge
              followed.2)) := by
  have hedge_delay : (session.backend.prepared key data options).hedgeDelay =
      session.backend.hedgeDelay := rfl
  simp only [Session.upload, Backend.upload_eq, Session.race, first, hedge_delay, second]
  rfl

/-- An upload whose attempts fare alike fares as they do, and it is over when the slower one of them
is at the latest. -/
theorem upload_ends (key : String) (data : Bytes) (options : UploadOptions)
    {primary hedge : Course Unit} {mid last : σ}
    (first : session.link.settle session.backend.maxAttempts Answer.accepted
      (session.backend.prepared key data options).request session.store = (primary, mid))
    (second : (if session.backend.hedgeDelay.nanos < primary.takes then
        session.link.settle session.backend.maxAttempts Answer.accepted
          (session.backend.prepared key data options).request mid
      else (({ result := primary.result, exchanges := [] } : Course Unit), mid)) = (hedge, last))
    (same : hedge.result = primary.result) :
    ∃ takes, takes ≤ max primary.takes (session.backend.hedgeDelay.nanos + hedge.takes) ∧
      session.Ends (session.upload key data options)
        (primary.result.mapError (Backend.refused .upload key)) last takes := by
  let upload := session.backend.prepared key data options
  let followed := follow upload (timing upload primary) (hedgeTiming upload primary hedge)
  have alike : (hedgeTiming upload primary hedge).result = (timing upload primary).result := by
    simp only [hedgeTiming, timing, same]
  have hedge_takes : ∀ after, (hedgeTiming upload primary hedge).after = some after →
      after ≤ hedge.takes := by
    intro after done
    simp only [hedgeTiming] at done
    split at done
    · exact Nat.le_of_eq (Option.some.inj done).symm
    · cases done
  obtain ⟨decided, due⟩ := follow_spec upload rfl _ _ alike
  have told : followed.1.result?.getD (timing upload primary).result =
      primary.result.mapError (Backend.refused .upload key) := by
    cases finished : followed.1.result? with
    | none => rfl
    | some result =>
      obtain ⟨outcome, ended, rfl⟩ := Option.map_eq_some_iff.mp finished
      exact decided outcome (Hedge.Phase.outcome_eq_some.mp ended)
  refine ⟨lastTime followed.2, ?_, ?_⟩
  · exact lastTime_le fun effect member => Hedge.dueTimes_le rfl hedge_takes (due effect member)
  · rw [upload_eq first second, ← told]
    refine ends_of_pass fun effect member => ?_
    rcases List.mem_append.mp member with early | later
    · obtain ⟨more, -, rfl⟩ := List.mem_map.mp early
      exact Nat.zero_le _
    · rcases List.mem_append.mp (List.mem_mergeSort.mp later) with answer | event
      · exact of_decide_eq_true (List.mem_filter.mp answer).2
      · exact le_lastTime event

end HedgedStore.Session
