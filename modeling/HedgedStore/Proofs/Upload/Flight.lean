import HedgedStore.Proofs.Backend.Prepared
import HedgedStore.Proofs.Store.Contract

/-! An upload between its caller and a store. The store handles the request of an attempt at some
moment after it was sent, and the answer comes in at some moment after that; the race is polled now
and then, and sees the answers that are in. An attempt that is let go before the store has got its
request leaves the request astray: it may still arrive, at any later moment, or never. The order in
which all this happens is a list of events, so a statement about all lists is one about all
schedules. -/
namespace HedgedStore

def Hedge.Attempt.other : Hedge.Attempt → Hedge.Attempt
  | .primary => .hedge
  | .hedge => .primary

theorem Hedge.Attempt.ne_other (attempt : Hedge.Attempt) : attempt ≠ attempt.other := by
  cases attempt <;> nofun

/-- How far the request of an attempt has come. -/
inductive Stage where
  | sent
  /-- The store is done with it, and the answer is under way. -/
  | settled (result : Except Refusal Unit)
  | answered (result : Except Refusal Unit)

/-- What the store has made of the request, once it is done with it. -/
def Stage.result? : Stage → Option (Except Refusal Unit)
  | .sent => none
  | .settled result | .answered result => some result

structure Shipment where
  number : Nat
  attempt : Hedge.Attempt
  request : Request
deriving DecidableEq

structure Flight (σ : Type) where
  store : σ
  upload : Upload
  /-- How many uploads there were before. -/
  number : Nat := 0
  /-- The time since the call, in nanoseconds. -/
  now : Nat := 0
  /-- The requests of the attempts that are under way. -/
  stages : Hedge.Attempt → Option Stage := fun _ => none
  /-- The requests that were left behind and may still arrive. -/
  strays : List Shipment := []
  handled : List Shipment := []

namespace Flight

variable {σ : Type}

inductive Event where
  | wait (nanos : Nat)
  | poll
  | handle (attempt : Hedge.Attempt)
  | answer (attempt : Hedge.Attempt)
  | arrive (place : Nat)
  | lose (place : Nat)
deriving DecidableEq

def shipment (flight : Flight σ) (attempt : Hedge.Attempt) : Shipment :=
  ⟨flight.number, attempt, flight.upload.request⟩

def setStage (flight : Flight σ) (attempt : Hedge.Attempt) (stage : Option Stage) : Flight σ :=
  { flight with stages := Function.update flight.stages attempt stage }

@[simp] theorem setStage_handled (flight : Flight σ) (attempt : Hedge.Attempt)
    (stage : Option Stage) : (flight.setStage attempt stage).handled = flight.handled := rfl

/-- The shipment of an attempt whose request the store has not got yet. -/
def pending (flight : Flight σ) (attempt : Hedge.Attempt) : List Shipment :=
  match flight.stages attempt with
  | some .sent => [flight.shipment attempt]
  | _ => []

theorem mem_pending {flight : Flight σ} {attempt : Hedge.Attempt} {shipment : Shipment}
    (h : shipment ∈ flight.pending attempt) : shipment = flight.shipment attempt := by
  unfold pending at h
  split at h
  · exact List.mem_singleton.mp h
  · cases h

def act (flight : Flight σ) : Hedge.Action → Flight σ
  | .call attempt => flight.setStage attempt (some .sent)
  | .release attempt =>
    { flight.setStage attempt none with strays := flight.strays ++ flight.pending attempt }
  | _ => flight

/-- The result of an attempt whose answer is in. -/
def result? (flight : Flight σ) (attempt : Hedge.Attempt) : Option (Except Failure Unit) :=
  match flight.stages attempt with
  | some (.answered result) => some (result.mapError flight.upload.refused)
  | _ => none

def view (flight : Flight σ) : Hedge.View (Except Failure Unit) :=
  { primary := flight.result? .primary
    hedge := flight.result? .hedge
    elapsed := decide (flight.upload.hedgeDelay.nanos ≤ flight.now) }

@[simp]
theorem view_onceMore (flight : Flight σ) : flight.view.onceMore = flight.view := rfl

def poll (flight : Flight σ) : Flight σ :=
  (flight.upload.phase.poll flight.view).2.foldl act
    { flight with upload := (flight.upload.poll flight.view ⟨flight.now⟩).1 }

section Events

variable (link : Link σ) (attempts : Nat)

/-- The store handles a request, in at most so many exchanges. -/
def deliver (flight : Flight σ) (shipment : Shipment) : Except Refusal Unit × Flight σ :=
  let (course, store) := link.settle attempts Answer.accepted shipment.request flight.store
  let reached := if shipment.request.isSendable then [shipment] else []
  (course.result, { flight with store, handled := flight.handled ++ reached })

section Deliver

variable (flight : Flight σ) (shipment : Shipment)

@[simp] theorem deliver_upload :
    (flight.deliver link attempts shipment).2.upload = flight.upload := rfl

@[simp] theorem deliver_number :
    (flight.deliver link attempts shipment).2.number = flight.number := rfl

@[simp] theorem deliver_stages :
    (flight.deliver link attempts shipment).2.stages = flight.stages := rfl

@[simp] theorem deliver_strays :
    (flight.deliver link attempts shipment).2.strays = flight.strays := rfl

variable {flight shipment}

theorem deliver_of_unsendable (unsendable : shipment.request.isSendable = false) :
    flight.deliver link attempts shipment = (.error Link.unsendable, flight) := by
  simp [deliver, Link.settle_of_unsendable unsendable, unsendable]

theorem deliver_handled (sendable : shipment.request.isSendable = true) :
    (flight.deliver link attempts shipment).2.handled = flight.handled ++ [shipment] := by
  simp [deliver, sendable]

end Deliver

/-- An event that cannot happen changes nothing. -/
def step (flight : Flight σ) : Event → Flight σ
  | .wait nanos => { flight with now := flight.now + nanos }
  | .poll => flight.poll
  | .handle attempt =>
    match flight.stages attempt with
    | some .sent =>
      let (result, next) := flight.deliver link attempts (flight.shipment attempt)
      next.setStage attempt (some (.settled result))
    | _ => flight
  | .answer attempt =>
    match flight.stages attempt with
    | some (.settled result) => flight.setStage attempt (some (.answered result))
    | _ => flight
  | .arrive place =>
    match flight.strays[place]? with
    | some shipment =>
      { (flight.deliver link attempts shipment).2 with strays := flight.strays.eraseIdx place }
    | none => flight
  | .lose place => { flight with strays := flight.strays.eraseIdx place }

def run (flight : Flight σ) (events : List Event) : Flight σ :=
  events.foldl (step link attempts) flight

end Events

def launch (backend : Backend) (key : String) (data : Bytes) (options : UploadOptions)
    (store : σ) : Flight σ :=
  { store, upload := backend.prepared key data options }

/-- No request is under way, nor astray. -/
def Quiet (flight : Flight σ) : Prop :=
  (∀ attempt, flight.stages attempt = none) ∧ flight.strays = []

/-- The requests under way are those of the phase. -/
def Coherent (flight : Flight σ) : Prop :=
  match flight.upload.phase with
  | .created | .finished _ => ∀ attempt, flight.stages attempt = none
  | .waiting => flight.stages .primary ≠ none ∧ flight.stages .hedge = none
  | .hedged => ∀ attempt, flight.stages attempt ≠ none
  | .dropped => False

inductive Polled (flight : Flight σ) : Flight σ → Prop
  | idle : Polled flight flight
  /-- The primary is called, and where there is no delay to wait for, the hedge with it. -/
  | begin (phase : flight.upload.phase = .created) :
      Polled flight { flight with
        upload := { flight.upload with phase := .waiting }
        stages := Function.update flight.stages .primary (some .sent) }
  | beginBoth (phase : flight.upload.phase = .created) :
      Polled flight { flight with
        upload := { flight.upload with phase := .hedged }
        stages := fun _ => some .sent }
  | hedge (phase : flight.upload.phase = .waiting) :
      Polled flight { flight with
        upload := { flight.upload with phase := .hedged }
        stages := Function.update flight.stages .hedge (some .sent) }
  | finish {winner : Hedge.Attempt} {result : Except Refusal Unit} (hedged : Bool)
      (phase : flight.upload.phase = if hedged then .hedged else .waiting)
      (alone : hedged = false → winner = .primary)
      (answered : flight.stages winner = some (.answered result)) :
      Polled flight { flight with
        upload := { flight.upload with
          phase := .finished ⟨result.mapError flight.upload.refused, winner, hedged⟩ }
        stages := fun _ => none
        strays := flight.strays ++ flight.pending winner.other }

theorem result_eq_some {flight : Flight σ} {attempt : Hedge.Attempt}
    {result : Except Failure Unit} (h : flight.result? attempt = some result) :
    ∃ r, flight.stages attempt = some (.answered r) ∧
      result = r.mapError flight.upload.refused := by
  unfold result? at h
  split at h
  · rename_i r stage
    exact ⟨r, stage, (Option.some.inj h).symm⟩
  · contradiction

theorem result_eq_none {flight : Flight σ} {attempt : Hedge.Attempt}
    (idle : flight.stages attempt = none) : flight.result? attempt = none := by
  simp [result?, idle]

/-! What a poll brings about, phase by phase. -/

theorem polled_created {flight : Flight σ} (phase : flight.upload.phase = .created)
    (none_out : ∀ attempt, flight.stages attempt = none) : Polled flight flight.poll := by
  have quiet : flight.view.primary = none ∧ flight.view.hedge = none :=
    ⟨result_eq_none (none_out .primary), result_eq_none (none_out .hedge)⟩
  cases elapsed : flight.view.elapsed with
  | false =>
    have h := Polled.begin phase
    simpa [poll, phase, Upload.poll, Upload.step, Hedge.Phase.poll, Hedge.Phase.pollPrimary,
      quiet, elapsed, act, setStage] using h
  | true =>
    have h := Polled.beginBoth phase
    have both : Function.update (Function.update flight.stages .primary (some .sent)) .hedge
        (some .sent) = fun _ => some .sent := by
      funext attempt
      cases attempt <;> rfl
    simpa [poll, phase, Upload.poll, Upload.step, Hedge.Phase.poll, Hedge.Phase.pollPrimary,
      Hedge.Phase.pollBoth, quiet, elapsed, act, setStage, both] using h

theorem polled_waiting {flight : Flight σ} (phase : flight.upload.phase = .waiting)
    (alone : flight.stages .hedge = none) : Polled flight flight.poll := by
  have unhedged : flight.view.hedge = none := result_eq_none alone
  cases primary : flight.view.primary with
  | some result =>
    obtain ⟨r, answered, rfl⟩ := result_eq_some primary
    have h := Polled.finish false phase (fun _ => rfl) answered
    have vacant : Function.update flight.stages .primary none = fun _ => none := by
      funext attempt
      cases attempt
      · rfl
      · exact alone
    simpa [poll, phase, Upload.poll, Upload.step, Hedge.Phase.poll, Hedge.Phase.pollPrimary,
      primary, act, setStage, pending, answered, alone, Hedge.Attempt.other, vacant] using h
  | none =>
    cases elapsed : flight.view.elapsed with
    | false =>
      have same : { flight.upload with phase := .waiting } = flight.upload := by rw [← phase]
      have h : Polled flight flight := .idle
      simpa [poll, phase, Upload.poll, Upload.step, Hedge.Phase.poll, Hedge.Phase.pollPrimary,
        primary, elapsed, act, same] using h
    | true =>
      have h := Polled.hedge phase
      simpa [poll, phase, Upload.poll, Upload.step, Hedge.Phase.poll, Hedge.Phase.pollPrimary,
        Hedge.Phase.pollBoth, primary, unhedged, elapsed, act, setStage] using h

theorem polled_hedged {flight : Flight σ} (phase : flight.upload.phase = .hedged) :
    Polled flight flight.poll := by
  cases hedge : flight.view.hedge with
  | some result =>
    obtain ⟨r, answered, rfl⟩ := result_eq_some hedge
    have h := Polled.finish true phase (fun h => nomatch h) answered
    have vacant : Function.update (Function.update flight.stages .hedge none) .primary none =
        fun _ => none := by
      funext attempt
      cases attempt <;> rfl
    simpa [poll, phase, Upload.poll, Upload.step, Hedge.Phase.poll, Hedge.Phase.pollBoth, hedge,
      act, setStage, pending, answered, Hedge.Attempt.other, vacant, shipment] using h
  | none =>
    cases primary : flight.view.primary with
    | some result =>
      obtain ⟨r, answered, rfl⟩ := result_eq_some primary
      have h := Polled.finish true phase (fun h => nomatch h) answered
      have vacant : Function.update (Function.update flight.stages .primary none) .hedge none =
          fun _ => none := by
        funext attempt
        cases attempt <;> rfl
      simpa [poll, phase, Upload.poll, Upload.step, Hedge.Phase.poll, Hedge.Phase.pollBoth, hedge,
        primary, act, setStage, pending, answered, Hedge.Attempt.other, vacant, shipment] using h
    | none =>
      have same : { flight.upload with phase := .hedged } = flight.upload := by rw [← phase]
      have h : Polled flight flight := .idle
      simpa [poll, phase, Upload.poll, Upload.step, Hedge.Phase.poll, Hedge.Phase.pollBoth, hedge,
        primary, act, same] using h

/-- A poll sees the answers that are in, and changes nothing else than the phase and the requests
of the attempts that it makes or lets go. -/
theorem polled {flight : Flight σ} (coherent : flight.Coherent) : Polled flight flight.poll := by
  cases phase : flight.upload.phase with
  | created =>
    simp only [Coherent, phase] at coherent
    exact polled_created phase coherent
  | waiting =>
    simp only [Coherent, phase] at coherent
    exact polled_waiting phase coherent.2
  | hedged => exact polled_hedged phase
  | finished outcome =>
    have same : { flight.upload with phase := .finished outcome } = flight.upload := by
      rw [← phase]
    have h : Polled flight flight := .idle
    simpa [poll, phase, Upload.poll, Upload.step, Hedge.Phase.poll, same] using h
  | dropped => simp [Coherent, phase] at coherent

/-! The requests under way are always those of the phase. -/

theorem coherent_of_same {flight next : Flight σ} (coherent : flight.Coherent)
    (phase : next.upload.phase = flight.upload.phase)
    (out : ∀ attempt, next.stages attempt = none ↔ flight.stages attempt = none) :
    next.Coherent := by
  unfold Coherent at coherent ⊢
  rw [phase]
  split at coherent <;> simp_all

theorem Polled.coherent {flight next : Flight σ} (polled : Polled flight next)
    (coherent : flight.Coherent) : next.Coherent := by
  cases polled with
  | idle => exact coherent
  | begin phase =>
    simp only [Coherent, phase] at coherent
    simp [Coherent, coherent]
  | beginBoth phase => simp [Coherent]
  | hedge phase =>
    simp only [Coherent, phase] at coherent
    intro attempt
    cases attempt
    · exact coherent.1
    · simp
  | finish hedged phase alone answered => simp [Coherent]

/-! What the store has made of the requests under way. -/

/-- Whatever result an attempt under way has got or will get is such as it should be. -/
def Told (such : Hedge.Attempt → Except Refusal Unit → Prop) (flight : Flight σ) : Prop :=
  ∀ attempt stage result, flight.stages attempt = some stage → stage.result? = some result →
    such attempt result

variable {such : Hedge.Attempt → Except Refusal Unit → Prop}

theorem Told.imp {other : Hedge.Attempt → Except Refusal Unit → Prop} {flight : Flight σ}
    (told : flight.Told such) (h : ∀ attempt result, such attempt result → other attempt result) :
    flight.Told other :=
  fun attempt stage result out done => h attempt result (told attempt stage result out done)

theorem Told.setStage {flight : Flight σ} (told : flight.Told such) (attempt : Hedge.Attempt)
    {stage : Stage} (h : ∀ result, stage.result? = some result → such attempt result) :
    (flight.setStage attempt (some stage)).Told such := by
  intro other later result out done
  by_cases own : other = attempt
  · subst own
    obtain rfl : stage = later := by simpa [Flight.setStage] using out
    exact h result done
  · exact told other later result (by simpa [Flight.setStage, own] using out) done

theorem Polled.told {flight next : Flight σ} (polled : Polled flight next)
    (told : flight.Told such) : next.Told such := by
  have sent : ∀ attempt result, Stage.sent.result? = some result → such attempt result := nofun
  cases polled with
  | idle => exact told
  | begin phase => exact told.setStage .primary (sent .primary)
  | beginBoth phase =>
    intro attempt stage result out done
    obtain rfl : Stage.sent = stage := by simpa using out
    cases done
  | hedge phase => exact told.setStage .hedge (sent .hedge)
  | finish hedged phase alone answered => exact nofun

theorem sent_of_setStage {flight : Flight σ} {attempt other : Hedge.Attempt} {stage : Stage}
    (arrived : stage ≠ .sent)
    (sent : (flight.setStage attempt (some stage)).stages other = some .sent) :
    other ≠ attempt ∧ flight.stages other = some .sent := by
  have own : other ≠ attempt := by
    rintro rfl
    exact arrived (by simpa [setStage] using sent)
  exact ⟨own, by simpa [setStage, own] using sent⟩

section Events

variable (link : Link σ) (attempts : Nat)

theorem coherent_step {flight : Flight σ} (coherent : flight.Coherent) (event : Event) :
    (flight.step link attempts event).Coherent := by
  cases event with
  | wait nanos => exact coherent
  | poll => exact (polled coherent).coherent coherent
  | handle attempt =>
    simp only [step]
    split
    · rename_i sent
      refine coherent_of_same coherent rfl (fun other => ?_)
      by_cases h : other = attempt
      · simp [setStage, h, sent]
      · simp [setStage, deliver, h]
    · exact coherent
  | answer attempt =>
    simp only [step]
    split
    · rename_i settled
      refine coherent_of_same coherent rfl (fun other => ?_)
      by_cases h : other = attempt
      · simp [setStage, h, settled]
      · simp [setStage, h]
    · exact coherent
  | arrive place =>
    simp only [step]
    split
    · exact coherent_of_same coherent rfl (fun _ => Iff.rfl)
    · exact coherent
  | lose place => exact coherent

theorem run_induction {holds : Flight σ → Prop}
    (kept : ∀ flight, holds flight → ∀ event, holds (flight.step link attempts event))
    {flight : Flight σ} (start : holds flight) (events : List Event) :
    holds (flight.run link attempts events) := by
  induction events generalizing flight with
  | nil => exact start
  | cons event events ih => exact ih (kept flight start event)

end Events

end Flight

end HedgedStore
