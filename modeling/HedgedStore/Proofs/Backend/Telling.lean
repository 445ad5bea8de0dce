import HedgedStore.Proofs.Backend.Turns
import HedgedStore.Proofs.Store.Shelf

/-! What the calls of a session tell the log. A call that comes to its end tells of itself once. The
event of a call that writes shows every failure of the call. That of a call that reads is told
before the answer is looked at, so it shows only that there was no answer of success. -/
namespace HedgedStore

def Effect.event? : Effect → Option LogEvent
  | tell event => some event
  | measure _ => none

/-- The request failed, whatever the store may have answered. -/
def Failure.isNetwork : Failure → Bool
  | network _ _ _ _ _ => true
  | _ => false

/-- What is shown of the result where these failures are known. -/
def complaint {α : Type} (knows : Failure → Bool) : Except Failure α → Option LogValue
  | .ok _ => none
  | .error failure => if knows failure then some (.plain failure.message) else none

/-- Just one of the events has this message, and it shows this as the error. -/
def Told (events : List LogEvent) (message : String) (error : Option LogValue) : Prop :=
  ∃ event, events.filter (·.message = message) = [event] ∧ event.level = .debug ∧
    event.fields.lookup "error" = error

section Told

variable {events more : List LogEvent} {message : String} {error : Option LogValue}

theorem Told.of_perm (told : Told events message error) (perm : more.Perm events) :
    Told more message error := by
  obtain ⟨event, one, shown⟩ := told
  have same := perm.filter (·.message = message)
  rw [one] at same
  exact ⟨event, List.perm_singleton.mp same, shown⟩

theorem told_singleton {event : LogEvent} (own : event.message = message)
    (level : event.level = .debug) (shown : event.fields.lookup "error" = error) :
    Told [event] message error :=
  ⟨event, by simp [own], level, shown⟩

theorem Told.append_left (told : Told events message error)
    (aside : ∀ event ∈ more, event.message ≠ message) : Told (more ++ events) message error := by
  obtain ⟨event, one, shown⟩ := told
  have none : more.filter (·.message = message) = [] :=
    List.filter_eq_nil_iff.mpr fun event member => by simpa using aside event member
  exact ⟨event, by rw [List.filter_append, none, one, List.nil_append], shown⟩

end Told

theorem lookup_errorField {α : Type} {fields : LogFields} (silent : fields.lookup "error" = none)
    (result : Except Failure α) :
    (fields ++ Backend.errorField result).lookup "error" = complaint (fun _ => true) result := by
  rw [List.lookup_append, silent, Option.none_or]
  cases result <;> rfl

/-! Queries. -/

namespace Query

def message : Query → String
  | fetch _ => "S3 GET"
  | list _ => "S3 LIST"
  | copy _ _ => "S3 COPY"
  | delete _ => "S3 DELETE"

/-- The failures that are known when the query tells of itself. -/
def knows : Query → Failure → Bool
  | fetch _ | list _ => Failure.isNetwork
  | copy _ _ | delete _ => fun _ => true

theorem unpack_eq_error {key : String} {object : Download} {failure : Failure}
    (failed : Backend.unpack key object = .error failure) : failure.isNetwork = false := by
  unfold Backend.unpack at failed
  split at failed
  · obtain rfl := Except.error.inj failed
    rfl
  · split at failed
    · split at failed
      · cases failed
      · obtain rfl := Except.error.inj failed
        rfl
    · cases failed

theorem complaint_eq_none {α : Type} {knows : Failure → Bool} {result : Except Failure α}
    (unknown : ∀ failure, result = .error failure → knows failure = false) :
    complaint knows result = none := by
  cases result with
  | ok a => rfl
  | error failure => simp [complaint, unknown failure rfl]

theorem conclude_told (backend : Backend) (query : Query) (found : Except Refusal query.Found) :
    ∃ event, (query.conclude backend found).2 = [.tell event] ∧
      Told [event] query.message (complaint query.knows (query.conclude backend found).1) := by
  cases query with
  | fetch key =>
    cases found with
    | error why => exact ⟨_, rfl, told_singleton rfl rfl (lookup_errorField rfl _)⟩
    | ok object =>
      refine ⟨_, rfl, told_singleton rfl rfl ?_⟩
      exact (complaint_eq_none fun failure failed => unpack_eq_error failed).symm
  | list start =>
    cases found with
    | error why => exact ⟨_, rfl, told_singleton rfl rfl (lookup_errorField rfl _)⟩
    | ok listing =>
      refine ⟨_, rfl, told_singleton rfl rfl ?_⟩
      refine (complaint_eq_none fun failure failed => ?_).symm
      obtain ⟨reason, rfl, -⟩ := Backend.callerKeys_eq_error_iff.mp failed
      rfl
  | copy source target => exact ⟨_, rfl, told_singleton rfl rfl (lookup_errorField rfl _)⟩
  | delete key => exact ⟨_, rfl, told_singleton rfl rfl (lookup_errorField rfl _)⟩

end Query

/-! Uploads. -/

namespace Hedge.Phase

variable {α : Type} {phase : Phase α} {view : View α}

/-- A race that sees its primary done ends, unless it was given up. -/
theorem poll_finishes (going : phase ≠ dropped) (done : view.primary.isSome = true) :
    (phase.poll view).1.outcome?.isSome = true := by
  obtain ⟨result, primary⟩ := Option.isSome_iff_exists.mp done
  cases phase with
  | created | waiting => simp [poll, pollPrimary, primary, outcome?]
  | hedged => cases hedge : view.hedge <;> simp [poll, pollBoth, primary, hedge, outcome?]
  | finished outcome => rfl
  | dropped => exact absurd rfl going

theorem poll_ne_dropped (going : phase ≠ dropped) : (phase.poll view).1 ≠ dropped := by
  have both (view : View α) : (pollBoth view).1 ≠ dropped := by
    unfold pollBoth
    split <;> nofun
  have first : (pollPrimary view).1 ≠ dropped := by
    unfold pollPrimary
    split
    · nofun
    · split
      · exact both _
      · nofun
  cases phase with
  | created | waiting => exact first
  | hedged => exact both view
  | finished outcome => nofun
  | dropped => exact absurd rfl going

end Hedge.Phase

namespace Upload

/-- What an upload has told so far: nothing of itself until its race is over. -/
def Tells (upload : Upload) (events : List LogEvent) : Prop :=
  match upload.phase.outcome? with
  | none => ∀ event ∈ events, event.message ≠ "S3 PUT"
  | some outcome => Told events "S3 PUT" (complaint (fun _ => true) outcome.result)

theorem action_aside (upload : Upload) (actions : List Hedge.Action) :
    ∀ event ∈ (actions.flatMap upload.effects).filterMap Effect.event?,
      event.message ≠ "S3 PUT" := by
  intro event member
  obtain ⟨effect, member, told⟩ := List.mem_filterMap.mp member
  obtain ⟨action, -, member⟩ := List.mem_flatMap.mp member
  cases action with
  | tellLaunch =>
    obtain rfl := List.mem_singleton.mp member
    obtain rfl := Option.some.inj told
    exact (by decide : "primary attempt is slow, launching hedge" ≠ "S3 PUT")
  | tellWinner attempt =>
    obtain rfl := List.mem_singleton.mp member
    obtain rfl := Option.some.inj told
    exact (by decide : "competing request succeeded, abandoning the other attempt" ≠ "S3 PUT")
  | countLaunch | countWin =>
    obtain rfl := List.mem_singleton.mp member
    cases told
  | call attempt | poll attempt | complete attempt | release attempt | discard attempt =>
    cases member

theorem event_told (upload : Upload) (outcome : Hedge.Outcome (Except Failure Unit))
    (elapsed : Duration) : Told [upload.event outcome elapsed] "S3 PUT"
      (complaint (fun _ => true) outcome.result) :=
  told_singleton rfl rfl (lookup_errorField rfl _)

/-- The poll that ends the race tells of the upload, and no other poll does. -/
theorem poll_tells {upload : Upload} {events : List LogEvent} (tells : upload.Tells events)
    (view : Hedge.View (Except Failure Unit)) (elapsed : Duration) :
    (upload.poll view elapsed).1.Tells
      (events ++ (upload.poll view elapsed).2.filterMap Effect.event?) := by
  have aside := upload.action_aside (upload.phase.poll view).2
  unfold Tells at tells
  cases before : upload.phase.outcome? with
  | some outcome =>
    have finished : upload.phase.isOver = true := Hedge.Phase.isOver_of_outcome (before ▸ rfl)
    have still := Hedge.Phase.poll_of_isOver finished view
    rw [before] at tells
    simp only [Upload.poll, step, Tells, still, before]
    simpa using tells
  | none =>
    rw [before] at tells
    cases after : (upload.phase.poll view).1.outcome? with
    | none =>
      simp only [Upload.poll, step, Tells, before, after, List.append_nil]
      intro event member
      rcases List.mem_append.mp member with old | new
      · exact tells event old
      · exact aside event new
    | some outcome =>
      simp only [Upload.poll, step, Tells, before, after, List.filterMap_append]
      have ending := (upload.event_told outcome elapsed).append_left aside
      exact ending.append_left tells

end Upload

/-! Sessions. -/

namespace Session

variable {σ α : Type} {session next : Session σ}

theorem happen_log {effect : Nat × Effect} (happened : session.happen effect = .ok next) :
    next.log = effect.2.event?.toList ++ session.log := by
  obtain ⟨time, effect⟩ := effect
  cases effect with
  | tell event =>
    obtain rfl := Except.ok.inj happened
    rfl
  | measure measurement =>
    obtain ⟨metrics, -, happened⟩ := bind_eq_ok.mp happened
    obtain rfl := Except.ok.inj happened
    rfl

def told (effects : Timed) : List LogEvent := effects.filterMap fun effect => effect.2.event?

theorem foldlM_happen_log {effects : Timed} (happened : effects.foldlM happen session = .ok next) :
    next.log = (told effects).reverse ++ session.log := by
  induction effects generalizing session with
  | nil =>
    obtain rfl := Except.ok.inj happened
    rfl
  | cons effect effects ih =>
    obtain ⟨mid, first, rest⟩ := bind_eq_ok.mp (List.foldlM_cons.symm.trans happened)
    have here : told (effect :: effects) = effect.2.event?.toList ++ told effects := by
      rw [told, List.filterMap_cons]
      cases effect.2.event? <;> rfl
    have single : effect.2.event?.toList.reverse = effect.2.event?.toList := by
      cases effect.2.event? <;> rfl
    rw [ih rest, happen_log first, here, List.reverse_append, single, List.append_assoc]

theorem pass_log {store : σ} {takes : Nat} {effects : Timed}
    (passed : session.pass store takes effects = .ok next) :
    next.log = (told effects).reverse ++ session.log := by
  obtain ⟨mid, happened, passed⟩ := bind_eq_ok.mp passed
  obtain rfl := Except.ok.inj passed
  have logged : mid.log = _ := foldlM_happen_log happened
  exact logged

theorem told_append (effects more : Timed) : told (effects ++ more) = told effects ++ told more :=
  List.filterMap_append

theorem told_answered (watch : Stopwatch) (method : Method) (start : Nat)
    (exchanges : List Exchange) : told (answered watch method start exchanges) = [] := by
  induction exchanges generalizing watch start with
  | nil => rfl
  | cons exchange rest ih =>
    simp only [answered, told_append, ih, List.append_nil]
    simp [told, Effect.event?]

theorem told_at (time : Nat) (effects : List Effect) :
    told (effects.map fun effect => (time, effect)) = effects.filterMap Effect.event? := by
  rw [told, List.filterMap_map]
  rfl

/-- The call is told of once, and so is the error. -/
def Tells (session next : Session σ) (message : String) (error : Option LogValue) : Prop :=
  ∃ events, next.log = events ++ session.log ∧ Told events message error

theorem call_tells {β : Type} {request : Request} {read : Answer → Verdict β}
    {conclude : Except Refusal β → Except Failure α × List Effect} {message : String}
    {error : Except Failure α → Option LogValue}
    (tells : ∀ found, ∃ event, (conclude found).2 = [.tell event] ∧
      Told [event] message (error (conclude found).1))
    {result : Except Failure α} (called : session.call request read conclude = .ok (result, next)) :
    session.Tells next message (error result) := by
  cases settled :
      session.link.settle session.backend.maxAttempts read request session.store with
  | mk course store =>
    simp only [call, settled] at called
    obtain ⟨last, passed, called⟩ := bind_eq_ok.mp called
    obtain ⟨rfl, rfl⟩ := Prod.mk.inj (Except.ok.inj called)
    refine ⟨_, pass_log passed, ?_⟩
    obtain ⟨event, only, once⟩ := tells course.result
    rw [told_append, told_answered, told_at, List.nil_append, only]
    exact once

/-! An upload tells of itself when its race is over. -/

/-- The upload is polled at a time, and what it does happens then. -/
def advance (upload : Upload) (primary hedge : Hedge.Timing (Except Failure Unit))
    (state : Upload × Timed) (now : Nat) : Upload × Timed :=
  let polled := state.1.poll (Hedge.Run.view upload.hedgeDelay.nanos primary hedge now) ⟨now⟩
  (polled.1, state.2 ++ polled.2.map fun effect => (now, effect))

/-- The upload was not given up, and has told what it should have. -/
structure Advancing (state : Upload × Timed) : Prop where
  going : state.1.phase ≠ .dropped
  tells : state.1.Tells (told state.2)

section Follow

variable {upload : Upload} {primary hedge : Hedge.Timing (Except Failure Unit)}
  {state : Upload × Timed}

theorem Advancing.advance (advancing : Advancing state) (now : Nat) :
    Advancing (advance upload primary hedge state now) := by
  constructor
  case going => exact Hedge.Phase.poll_ne_dropped advancing.going
  case tells =>
    rw [Session.advance, told_append, told_at]
    exact Upload.poll_tells advancing.tells _ _

theorem Advancing.foldl (advancing : Advancing state) (times : List Nat) :
    Advancing (times.foldl (Session.advance upload primary hedge) state) := by
  induction times generalizing state with
  | nil => exact advancing
  | cons now times ih => exact ih (advancing.advance now)

theorem outcome_of_finished (finished : state.1.phase.outcome?.isSome = true) (times : List Nat) :
    (times.foldl (advance upload primary hedge) state).1.phase.outcome?.isSome = true := by
  induction times generalizing state with
  | nil => exact finished
  | cons now times ih =>
    have still := Hedge.Phase.poll_of_isOver (Hedge.Phase.isOver_of_outcome finished)
      (Hedge.Run.view upload.hedgeDelay.nanos primary hedge now)
    refine ih ?_
    rw [advance, Upload.poll, Upload.step, still]
    exact finished

/-- The race is over when its primary is done, if it was not before. -/
theorem Advancing.finishes (advancing : Advancing state) {times : List Nat} {after : Nat}
    (done : primary.after = some after) (due : after ∈ times) :
    (times.foldl (Session.advance upload primary hedge) state).1.phase.outcome?.isSome = true := by
  induction times generalizing state with
  | nil => cases due
  | cons now times ih =>
    rcases List.mem_cons.mp due with rfl | later
    · have seen : (Hedge.Run.view upload.hedgeDelay.nanos primary hedge after).primary.isSome =
          true := by
        simp [Hedge.Run.view, Hedge.Timing.at?, done]
      exact outcome_of_finished (Hedge.Phase.poll_finishes advancing.going seen) times
    · exact ih (advancing.advance now) later

/-- An upload that is followed to its end has told of itself once, and of what it returned. -/
theorem follow_told (created : upload.phase = .created) {after : Nat}
    (done : primary.after = some after) :
    ∃ outcome, (follow upload primary hedge).1.phase.outcome? = some outcome ∧
      Told (told (follow upload primary hedge).2) "S3 PUT"
        (complaint (fun _ => true) outcome.result) := by
  let times := Hedge.dueTimes upload.hedgeDelay.nanos primary hedge none
  have same : follow upload primary hedge =
      times.foldl (advance upload primary hedge) (upload, []) := rfl
  have begun : Advancing (upload, []) := by
    constructor
    case going => simp [created]
    case tells =>
      have going : upload.phase.outcome? = none := by rw [created]; rfl
      simp [Upload.Tells, going, told]
  have due : after ∈ times := Hedge.primary_due _ _ (Hedge.takes_eq_coe.mpr done)
  have finished : (follow upload primary hedge).1.phase.outcome?.isSome = true := by
    rw [same]
    exact begun.finishes done due
  have tells : (follow upload primary hedge).1.Tells (told (follow upload primary hedge).2) := by
    rw [same]
    exact (begun.foldl times).tells
  obtain ⟨outcome, ended⟩ := Option.isSome_iff_exists.mp finished
  rw [Upload.Tells, ended] at tells
  exact ⟨outcome, ended, tells⟩

end Follow

theorem told_measured (options : UploadOptions) (data : Bytes) :
    (options.measured data).filterMap Effect.event? = [] := by
  unfold UploadOptions.measured
  cases options.compress <;> rfl

/-- Of an upload the log gets what is told while it is followed to its end. -/
theorem told_upload {first : List Effect} (quiet : first.filterMap Effect.event? = [])
    (delay : Nat) (primary hedge : Course Unit) (effects : Timed) :
    (told (uploadEffects first delay primary hedge effects)).Perm (told effects) := by
  have measured : told ((answered {} .put 0 primary.exchanges ++
      answered {} .put delay hedge.exchanges).filter fun effect => effect.1 ≤ lastTime effects) =
        [] := by
    have all : told (answered {} .put 0 primary.exchanges ++
        answered {} .put delay hedge.exchanges) = [] := by
      rw [told_append, told_answered, told_answered, List.append_nil]
    rw [told, List.filterMap_eq_nil_iff] at all ⊢
    exact fun effect member => all effect (List.mem_of_mem_filter member)
  rw [uploadEffects, told_append, told_at, quiet, List.nil_append]
  refine ((List.mergeSort_perm _ _).filterMap _).trans ?_
  rw [List.filterMap_append]
  rw [told] at measured
  rw [measured, List.nil_append, told]

theorem upload_tells {key : String} {data : Bytes} {options : UploadOptions}
    {result : Except Failure Unit}
    (uploaded : session.upload key data options = .ok (result, next)) :
    session.Tells next "S3 PUT" (complaint (fun _ => true) result) := by
  cases first : session.link.settle session.backend.maxAttempts Answer.accepted
      (session.backend.prepared key data options).request session.store with
  | mk primary mid =>
    cases second : (if session.backend.hedgeDelay.nanos < primary.takes then
        session.link.settle session.backend.maxAttempts Answer.accepted
          (session.backend.prepared key data options).request mid
      else (({ result := primary.result, exchanges := [] } : Course Unit), mid)) with
    | mk hedge last =>
      rw [upload_eq first second] at uploaded
      obtain ⟨later, passed, uploaded⟩ := bind_eq_ok.mp uploaded
      obtain ⟨rfl, rfl⟩ := Prod.mk.inj (Except.ok.inj uploaded)
      let upload := session.backend.prepared key data options
      obtain ⟨outcome, ended, once⟩ :=
        @follow_told upload (timing upload primary) (hedgeTiming upload primary hedge) rfl _ rfl
      refine ⟨_, pass_log passed, ?_⟩
      rw [Upload.result?, ended]
      exact once.of_perm ((List.reverse_perm _).trans
        (told_upload (told_measured options data) _ _ _ _))

/-- Whatever the store does: a call that comes to its end tells of itself once. If it writes, the
event shows an error just when the call returns one. If it reads, the event shows an error just when
the request failed; a body that breaks off or is no gzip stream and a listing that is cut short or
has strange keys make the call fail, and it is told as if it had succeeded. -/
theorem calls_told (session : Session σ) :
    (∀ key data options result next, session.upload key data options = .ok (result, next) →
      session.Tells next "S3 PUT" (complaint (fun _ => true) result)) ∧
    (∀ key result next, session.fetch key = .ok (result, next) →
      session.Tells next "S3 GET" (complaint Failure.isNetwork result)) ∧
    (∀ start result next, session.list start = .ok (result, next) →
      session.Tells next "S3 LIST" (complaint Failure.isNetwork result)) ∧
    (∀ source target result next, session.copy source target = .ok (result, next) →
      session.Tells next "S3 COPY" (complaint (fun _ => true) result)) ∧
    (∀ key result next, session.delete key = .ok (result, next) →
      session.Tells next "S3 DELETE" (complaint (fun _ => true) result)) := by
  have query : ∀ query : Query, ∀ found, ∃ event,
      (query.conclude session.backend found).2 = [.tell event] ∧ Told [event] query.message
        (complaint query.knows (query.conclude session.backend found).1) :=
    fun query found => query.conclude_told session.backend found
  refine ⟨?_, ?_, ?_, ?_, ?_⟩
  · exact fun key data options result next uploaded => upload_tells uploaded
  · exact fun key result next fetched => call_tells (query (.fetch key)) fetched
  · exact fun start result next listed => call_tells (query (.list start)) listed
  · exact fun source target result next copied => call_tells (query (.copy source target)) copied
  · exact fun key result next deleted => call_tells (query (.delete key)) deleted

/-- Every answer is one of success whose body breaks off. -/
def brokenLink : Link Unit := ⟨fun _ _ => (⟨some { status := 200, complete := false }, ⟨0⟩⟩, ())⟩

theorem broken_body_told_as_success : ∃ session next failure,
    Session.create { region := "here", bucket := "objects" } (Shelf.backend "log/" false) brokenLink ()
      ⟨0⟩ = .ok session ∧
    session.fetch "k" = .ok (.error failure, next) ∧ session.Tells next "S3 GET" none := by
  let broken : Download := { encoding := none, length := none, body := [], complete := false }
  have room : StoreMetrics.HasRoom ⟨0⟩ := by
    unfold StoreMetrics.HasRoom
    decide
  obtain ⟨session, opened⟩ := create_returns room { region := "here", bucket := "objects" }
    (Shelf.backend "log/" false) brokenLink ()
  obtain ⟨at_backend, over_link, at_store, started, regular⟩ := create_spec opened
  have settled : session.link.settle session.backend.maxAttempts Answer.download
      (session.backend.fetchRequest "k") session.store =
        (⟨.ok broken, [⟨some { status := 200, complete := false }, ⟨0⟩⟩]⟩, ()) := by
    rw [at_backend, over_link]
    rfl
  have ends := call_ends _ _ (Backend.fetched "k") settled
  obtain ⟨next, fetched, -⟩ := ends.returns (regular room) (by rw [started]; exact room)
  refine ⟨session, next, .read "k" "the body broke off", opened, fetched, ?_⟩
  exact call_tells (fun found => (Query.fetch "k").conclude_told session.backend found) fetched

end Session

end HedgedStore
