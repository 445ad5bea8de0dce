import HedgedStore.Proofs.Store.Shelf
import HedgedStore.Proofs.Upload.Flight

/-! A create-only upload against a store that carries out the condition. Both attempts of the race
ask for the same object to be created, so the store lets the first one pass that it handles and
turns the other one down. Which of the two is handled first and which is answered first are
different matters: the race adopts the answer that comes first, and that may be the refusal which
the upload's own other attempt has brought about. -/
namespace HedgedStore.Flight

variable {σ : Type}

/-- What the order in which requests were handled makes of an attempt: the first one creates the
object, and any other one is turned down. -/
def Fate (handled : List Shipment) (attempt : Hedge.Attempt) (result : Except Refusal Unit) : Prop :=
  ∃ first, handled.head? = some first ∧
    if first.attempt = attempt then result = .ok ()
    else ∃ why, result = .error why ∧ why.status = some 412

theorem Fate.append {handled : List Shipment} {attempt : Hedge.Attempt}
    {result : Except Refusal Unit} (fate : Fate handled attempt result) (later : List Shipment) :
    Fate (handled ++ later) attempt result := by
  obtain ⟨first, head, result⟩ := fate
  exact ⟨first, by simp [List.head?_append, head], result⟩

/-- A create-only upload on its way, whose request can be sent. -/
structure Creating (holds : σ → String → Option StoredObject) (key : String) (request : Request)
    (flight : Flight σ) : Prop where
  coherent : flight.Coherent
  same : flight.upload.request = request
  /-- The object is there as soon as a request was handled. -/
  kept : holds flight.store key = if flight.handled = [] then none else some request.object
  told : flight.Told (Fate flight.handled)
  /-- A request on its way to the store has not been there yet. -/
  fresh : ∀ attempt, flight.stages attempt = some .sent →
    ∀ shipment ∈ flight.handled, shipment.attempt ≠ attempt
  unbegun : flight.upload.phase = .created → flight.handled = []
  unhedged : flight.upload.phase = .waiting → ∀ shipment ∈ flight.handled,
    shipment.attempt = .primary
  astray : ∀ shipment ∈ flight.strays, shipment.request = request
  unstrayed : flight.upload.phase.outcome? = none → flight.strays = []
  decided : ∀ outcome, flight.upload.phase = .finished outcome →
    ∃ result, outcome.result = result.mapError flight.upload.refused ∧
      Fate flight.handled outcome.winner result ∧
      (outcome.hedged = false → result = .ok ())

section Creating

variable {holds : σ → String → Option StoredObject} {key : String} {request : Request}
  {flight : Flight σ}

theorem Creating.poll (h : Creating holds key request flight) :
    Creating holds key request flight.poll := by
  have polled := polled h.coherent
  have coherent := polled.coherent h.coherent
  have told := polled.told h.told
  generalize flight.poll = next at polled coherent told
  cases polled with
  | idle => exact h
  | begin phase =>
    have unhandled := h.unbegun phase
    exact ⟨coherent, h.same, h.kept, told, by simp [unhandled], nofun, by simp [unhandled],
      h.astray, fun _ => h.unstrayed (by rw [phase]; rfl), nofun⟩
  | beginBoth phase =>
    have unhandled := h.unbegun phase
    exact ⟨coherent, h.same, h.kept, told, by simp [unhandled], nofun, nofun,
      h.astray, fun _ => h.unstrayed (by rw [phase]; rfl), nofun⟩
  | hedge phase =>
    refine ⟨coherent, h.same, h.kept, told, ?_, nofun, nofun, h.astray,
      fun _ => h.unstrayed (by rw [phase]; rfl), nofun⟩
    intro attempt sent
    cases attempt
    · exact h.fresh .primary sent
    · intro shipment handled
      simp [h.unhedged phase shipment handled]
  | finish hedged phase alone answered =>
    rename_i winner result
    have fate := h.told winner _ result answered rfl
    refine ⟨coherent, h.same, h.kept, told, nofun, nofun, nofun, ?_, ?_, ?_⟩
    · intro shipment stray
      rcases List.mem_append.mp stray with old | new
      · exact h.astray shipment old
      · exact mem_pending new ▸ h.same
    · intro going
      simp [Hedge.Phase.outcome?] at going
    · intro outcome ended
      obtain rfl := Hedge.Phase.finished.inj ended
      refine ⟨result, rfl, fate, ?_⟩
      rintro rfl
      obtain ⟨first, head, result_eq⟩ := fate
      have primary := h.unhedged phase first (List.mem_of_head? head)
      rwa [alone rfl, if_pos primary] at result_eq

theorem Creating.answer (link : Link σ) (attempts : Nat) (h : Creating holds key request flight)
    (attempt : Hedge.Attempt) :
    Creating holds key request (flight.step link attempts (.answer attempt)) := by
  have coherent := coherent_step link attempts h.coherent (.answer attempt)
  simp only [Flight.step] at coherent ⊢
  split at coherent
  · rename_i result settled
    have told : (flight.setStage attempt (some (.answered result))).Told (Fate flight.handled) :=
      h.told.setStage attempt fun r done => h.told attempt _ r settled done
    refine ⟨coherent, h.same, h.kept, told, ?_, h.unbegun, h.unhedged, h.astray, h.unstrayed,
      h.decided⟩
    intro other sent
    exact h.fresh other (sent_of_setStage (fun arrived => by cases arrived) sent).2
  · exact h

theorem Creating.lose (h : Creating holds key request flight) (place : Nat) :
    Creating holds key request { flight with strays := flight.strays.eraseIdx place } where
  coherent := h.coherent
  same := h.same
  kept := h.kept
  told := h.told
  fresh := h.fresh
  unbegun := h.unbegun
  unhedged := h.unhedged
  astray := fun shipment stray => h.astray shipment (List.mem_of_mem_eraseIdx stray)
  unstrayed := fun going => by simp [h.unstrayed going]
  decided := h.decided

end Creating

/-! What the store does to the requests of such an upload. -/

section Deliver

variable {link : Link σ} {bucket : String} {holds : σ → String → Option StoredObject}
  {key : String} {request : Request} {flight : Flight σ}
variable (keeps : link.CreatesOnly bucket holds) (writes : request.Writes bucket key)
  (conditional : request.header? "if-match" = some "") (sendable : request.isSendable = true)
  (attempts : Nat)

include keeps writes conditional sendable

theorem deliver_first (absent : holds flight.store key = none) {shipment : Shipment}
    (same : shipment.request = request) :
    (flight.deliver link attempts shipment).1 = .ok () ∧
      holds (flight.deliver link attempts shipment).2.store key = some request.object := by
  subst same
  obtain ⟨result, kept⟩ := keeps.settle_create writes conditional sendable attempts absent
  refine ⟨result, ?_⟩
  simp only [deliver]
  rw [kept, Function.update_self]

theorem deliver_later (present : holds flight.store key ≠ none) {shipment : Shipment}
    (same : shipment.request = request) :
    (∃ why, (flight.deliver link attempts shipment).1 = .error why ∧ why.status = some 412) ∧
      holds (flight.deliver link attempts shipment).2.store = holds flight.store := by
  subst same
  exact keeps.settle_refused writes conditional sendable attempts present

theorem Creating.deliver_kept (h : Creating holds key request flight) (shipment : Shipment)
    (same : shipment.request = request) :
    holds (flight.deliver link attempts shipment).2.store key = some request.object ∧
      (flight.deliver link attempts shipment).2.handled = flight.handled ++ [shipment] := by
  have handled : (flight.deliver link attempts shipment).2.handled =
      flight.handled ++ [shipment] := deliver_handled link attempts (same ▸ sendable)
  refine ⟨?_, handled⟩
  by_cases first : flight.handled = []
  · have absent : holds flight.store key = none := by rw [h.kept, if_pos first]
    exact (deliver_first keeps writes conditional sendable attempts absent same).2
  · have present : holds flight.store key = some request.object := by rw [h.kept, if_neg first]
    rw [(deliver_later keeps writes conditional sendable attempts (by simp [present]) same).2,
      present]

theorem Creating.deliver_fate (h : Creating holds key request flight) (shipment : Shipment)
    (same : shipment.request = request)
    (fresh : ∀ earlier ∈ flight.handled, earlier.attempt ≠ shipment.attempt) :
    Fate (flight.handled ++ [shipment]) shipment.attempt
      (flight.deliver link attempts shipment).1 := by
  cases earlier : flight.handled with
  | nil =>
    have absent : holds flight.store key = none := by rw [h.kept, if_pos earlier]
    refine ⟨shipment, rfl, ?_⟩
    rw [if_pos rfl]
    exact (deliver_first keeps writes conditional sendable attempts absent same).1
  | cons first rest =>
    have present : holds flight.store key ≠ none := by rw [h.kept]; simp [earlier]
    refine ⟨first, rfl, ?_⟩
    rw [if_neg (fresh first (by simp [earlier]))]
    exact (deliver_later keeps writes conditional sendable attempts present same).1

theorem Creating.handle (h : Creating holds key request flight) (attempt : Hedge.Attempt)
    (sent : flight.stages attempt = some .sent) :
    Creating holds key request (flight.step link attempts (.handle attempt)) := by
  have coherent := coherent_step link attempts h.coherent (.handle attempt)
  have fresh := h.fresh attempt sent
  obtain ⟨kept, handled⟩ := h.deliver_kept keeps writes conditional sendable attempts
    (flight.shipment attempt) h.same
  have fate := h.deliver_fate keeps writes conditional sendable attempts
    (flight.shipment attempt) h.same fresh
  have idle := h.coherent
  simp only [step, sent] at coherent ⊢
  refine ⟨coherent, h.same, ?_, ?_, ?_, ?_, ?_, h.astray, h.unstrayed, ?_⟩
  · simpa [setStage, handled] using kept
  · rw [setStage_handled, handled]
    refine Told.setStage (h.told.imp fun _ _ fate => fate.append _) attempt ?_
    intro result done
    obtain rfl := Option.some.inj done
    exact fate
  · intro other sent shipment member
    rw [setStage_handled, handled] at member
    obtain ⟨own, sent⟩ := sent_of_setStage (fun arrived => by cases arrived) sent
    rcases List.mem_append.mp member with earlier | now
    · exact h.fresh other sent shipment earlier
    · obtain rfl := List.mem_singleton.mp now
      exact own.symm
  · intro created
    simp only [Coherent, show flight.upload.phase = .created from created] at idle
    simp [idle] at sent
  · intro waiting shipment member
    rw [setStage_handled, handled] at member
    rcases List.mem_append.mp member with earlier | now
    · exact h.unhedged waiting shipment earlier
    · obtain rfl := List.mem_singleton.mp now
      simp only [Coherent, show flight.upload.phase = .waiting from waiting] at idle
      cases attempt
      · rfl
      · simp [idle] at sent
  · intro outcome finished
    simp only [Coherent, show flight.upload.phase = .finished outcome from finished] at idle
    simp [idle] at sent

/-- A request that was left behind finds the object there. By then the race is over, so nothing
else than the object is at stake. -/
theorem Creating.arrive (h : Creating holds key request flight) (place : Nat) :
    Creating holds key request (flight.step link attempts (.arrive place)) := by
  have coherent := coherent_step link attempts h.coherent (.arrive place)
  simp only [Flight.step] at coherent ⊢
  split at coherent
  · rename_i shipment stray
    have member := List.mem_of_getElem? stray
    obtain ⟨kept, handled⟩ := h.deliver_kept keeps writes conditional sendable attempts
      shipment (h.astray shipment member)
    obtain ⟨outcome, finished⟩ : ∃ outcome, flight.upload.phase = .finished outcome := by
      cases ended : flight.upload.phase.outcome? with
      | none => simp [h.unstrayed ended] at member
      | some outcome => exact ⟨outcome, Hedge.Phase.outcome_eq_some.mp ended⟩
    have idle := h.coherent
    simp only [Coherent, finished] at idle
    have later := h.lose place
    refine ⟨coherent, h.same, ?_, ?_, ?_, ?_, ?_, later.astray, later.unstrayed, ?_⟩
    · simpa [handled] using kept
    · intro attempt stage result out
      simp [idle] at out
    · intro attempt sent
      simp [idle] at sent
    · intro created
      simp [finished] at created
    · intro waiting
      simp [finished] at waiting
    · intro ending ended
      obtain ⟨result, adopted, fate, alone⟩ := h.decided ending ended
      exact ⟨result, adopted, handled ▸ fate.append _, alone⟩
  · exact h

theorem Creating.step (h : Creating holds key request flight) (event : Event) :
    Creating holds key request (flight.step link attempts event) := by
  cases event with
  | wait nanos =>
    exact ⟨h.coherent, h.same, h.kept, h.told, h.fresh, h.unbegun, h.unhedged, h.astray,
      h.unstrayed, h.decided⟩
  | poll => exact h.poll
  | handle attempt =>
    by_cases sent : flight.stages attempt = some .sent
    · exact h.handle keeps writes conditional sendable attempts attempt sent
    · simpa only [Flight.step] using h
  | answer attempt => exact h.answer link attempts attempt
  | arrive place => exact h.arrive keeps writes conditional sendable attempts place
  | lose place => exact h.lose place

end Deliver

/-- An upload on its way whose request cannot be sent. -/
structure Unsendable (request : Request) (initial : σ) (flight : Flight σ) : Prop where
  coherent : flight.Coherent
  same : flight.upload.request = request
  untouched : flight.store = initial
  unhandled : flight.handled = []
  told : flight.Told fun _ result => result = .error Link.unsendable
  astray : ∀ shipment ∈ flight.strays, shipment.request = request
  decided : ∀ outcome, flight.upload.phase = .finished outcome →
    outcome.result = .error (flight.upload.refused Link.unsendable)

section Unsendable

variable {link : Link σ} {request : Request} {initial : σ} {flight : Flight σ}

theorem Unsendable.poll (h : Unsendable request initial flight) :
    Unsendable request initial flight.poll := by
  have polled := polled h.coherent
  have coherent := polled.coherent h.coherent
  have told := polled.told h.told
  generalize flight.poll = next at polled coherent told
  cases polled with
  | idle => exact h
  | begin | beginBoth | hedge =>
    exact ⟨coherent, h.same, h.untouched, h.unhandled, told, h.astray, nofun⟩
  | finish hedged phase alone answered =>
    refine ⟨coherent, h.same, h.untouched, h.unhandled, told, ?_, ?_⟩
    · intro shipment stray
      rcases List.mem_append.mp stray with old | new
      · exact h.astray shipment old
      · exact mem_pending new ▸ h.same
    · intro outcome ended
      obtain rfl := Hedge.Phase.finished.inj ended
      rw [h.told _ _ _ answered rfl]
      rfl

theorem Unsendable.step (unsendable : request.isSendable = false) (attempts : Nat)
    (h : Unsendable request initial flight) (event : Event) :
    Unsendable request initial (flight.step link attempts event) := by
  have coherent := coherent_step link attempts h.coherent event
  have fewer : ∀ place, ∀ shipment ∈ flight.strays.eraseIdx place, shipment.request = request :=
    fun place shipment stray => h.astray shipment (List.mem_of_mem_eraseIdx stray)
  cases event with
  | wait nanos =>
    exact ⟨h.coherent, h.same, h.untouched, h.unhandled, h.told, h.astray, h.decided⟩
  | poll => exact h.poll
  | handle attempt =>
    simp only [Flight.step] at coherent ⊢
    split at coherent
    · have same : (flight.shipment attempt).request = request := h.same
      have stuck : (flight.shipment attempt).request.isSendable = false := by rw [same, unsendable]
      rw [deliver_of_unsendable link attempts stuck] at coherent ⊢
      refine ⟨coherent, h.same, h.untouched, h.unhandled, ?_, h.astray, h.decided⟩
      exact h.told.setStage attempt fun result done => (Option.some.inj done).symm
    · exact h
  | answer attempt =>
    simp only [Flight.step] at coherent ⊢
    split at coherent
    · rename_i settled
      refine ⟨coherent, h.same, h.untouched, h.unhandled, ?_, h.astray, h.decided⟩
      exact h.told.setStage attempt fun result done => h.told attempt _ result settled done
    · exact h
  | arrive place =>
    simp only [Flight.step] at coherent ⊢
    split at coherent
    · rename_i shipment stray
      have same := h.astray shipment (List.mem_of_getElem? stray)
      have stuck : shipment.request.isSendable = false := by rw [same, unsendable]
      rw [deliver_of_unsendable link attempts stuck] at coherent ⊢
      exact ⟨coherent, h.same, h.untouched, h.unhandled, h.told, fewer place, h.decided⟩
    · exact h
  | lose place =>
    exact ⟨h.coherent, h.same, h.untouched, h.unhandled, h.told, fewer place, h.decided⟩

end Unsendable

/-! The outcome of a create-only upload. -/

/-- The store has handled the attempt before any other one. -/
def Foremost (flight : Flight σ) (attempt : Hedge.Attempt) : Prop :=
  ∃ first, flight.handled.head? = some first ∧ first.attempt = attempt

section Launch

variable {link : Link σ} {backend : Backend} {holds : σ → String → Option StoredObject}
  {key : String} {data : Bytes} {options : UploadOptions} {store : σ}

theorem creating_launch (absent : holds store (backend.objectKey key) = none) :
    Creating holds (backend.objectKey key) (backend.prepared key data options).request
      (launch backend key data options store) where
  coherent := fun _ => rfl
  same := rfl
  kept := absent
  told := nofun
  fresh := nofun
  unbegun := fun _ => rfl
  unhedged := nofun
  astray := nofun
  unstrayed := fun _ => rfl
  decided := nofun

theorem unsendable_launch :
    Unsendable (backend.prepared key data options).request store
      (launch backend key data options store) where
  coherent := fun _ => rfl
  same := rfl
  untouched := rfl
  unhandled := rfl
  told := nofun
  astray := nofun
  decided := nofun

theorem refused_isPreconditionFailed (upload : Upload) {why : Refusal}
    (h : why.status = some 412) : (upload.refused why).isPreconditionFailed = true := by
  simp [Upload.refused, Backend.refused, Failure.isPreconditionFailed, Failure.status, h]

/-- A create-only upload that can be sent has created the object by its end, and it succeeds exactly
if the attempt that the race adopts is the one that the store handled first. -/
theorem Creating.outcome {holds : σ → String → Option StoredObject} {key : String}
    {request : Request} {flight : Flight σ} (h : Creating holds key request flight)
    {outcome : Hedge.Outcome (Except Failure Unit)}
    (ended : flight.upload.phase = .finished outcome) :
    holds flight.store key = some request.object ∧
      (outcome.result = .ok () ↔ flight.Foremost outcome.winner) ∧
      (outcome.result ≠ .ok () → outcome.hedged = true ∧
        ∃ failure, outcome.result = .error failure ∧ failure.isPreconditionFailed = true) := by
  obtain ⟨result, adopted, ⟨first, head, fate⟩, alone⟩ := h.decided outcome ended
  have handled : flight.handled ≠ [] := by
    intro unhandled
    simp [unhandled] at head
  have created : holds flight.store key = some request.object := by rw [h.kept, if_neg handled]
  by_cases own : first.attempt = outcome.winner
  · rw [if_pos own] at fate
    have succeeded : outcome.result = .ok () := by rw [adopted, fate]; rfl
    exact ⟨created, ⟨fun _ => ⟨first, head, own⟩, fun _ => succeeded⟩,
      fun failed => absurd succeeded failed⟩
  · rw [if_neg own] at fate
    obtain ⟨why, rfl, named⟩ := fate
    have failed : outcome.result ≠ .ok () := by rw [adopted]; nofun
    have beaten : ¬ flight.Foremost outcome.winner := by
      rintro ⟨other, other_head, other_own⟩
      obtain rfl : first = other := Option.some.inj (head.symm.trans other_head)
      exact own other_own
    refine ⟨created, ⟨fun h => absurd h failed, fun h => absurd h beaten⟩, fun _ => ?_⟩
    refine ⟨?_, _, adopted, refused_isPreconditionFailed _ named⟩
    cases hedged : outcome.hedged with
    | true => rfl
    | false => exact absurd (alone hedged) nofun

theorem Unsendable.outcome {request : Request} {initial : σ} {flight : Flight σ}
    (h : Unsendable request initial flight) {outcome : Hedge.Outcome (Except Failure Unit)}
    (ended : flight.upload.phase = .finished outcome) :
    flight.store = initial ∧ ¬ flight.Foremost outcome.winner ∧
      ∃ failure, outcome.result = .error failure ∧ failure.status = none := by
  refine ⟨h.untouched, ?_, _, h.decided outcome ended, rfl⟩
  rintro ⟨first, head, own⟩
  simp [h.unhandled] at head

/-- A create-only upload succeeds exactly if the attempt that the race adopts is the one that the
store handled first. The object is there in any case; where the race adopts the other attempt, the
upload fails on the condition that its own attempts have broken. A request that cannot be sent
fails without a status. -/
theorem create_only_outcome (keeps : link.CreatesOnly backend.bucket holds)
    (immutable : options.immutable = true) (conditional : backend.conditionalWrites = true)
    (absent : holds store (backend.objectKey key) = none) (events : List Event)
    {flight : Flight σ}
    (ran : (launch backend key data options store).run link backend.maxAttempts events = flight)
    {outcome : Hedge.Outcome (Except Failure Unit)}
    (completed : flight.upload.phase.outcome? = some outcome) :
    (outcome.result = .ok () ↔ flight.Foremost outcome.winner) ∧
      if (backend.prepared key data options).request.isSendable then
        holds flight.store (backend.objectKey key) =
            some (backend.prepared key data options).request.object ∧
          (outcome.result ≠ .ok () → outcome.hedged = true ∧
            ∃ failure, outcome.result = .error failure ∧ failure.isPreconditionFailed = true)
      else flight.store = store ∧
        ∃ failure, outcome.result = .error failure ∧ failure.status = none := by
  subst ran
  let flight := (launch backend key data options store).run link backend.maxAttempts events
  let request := (backend.prepared key data options).request
  have ended := Hedge.Phase.outcome_eq_some.mp completed
  cases sendable : request.isSendable with
  | true =>
    have condition : request.header? "if-match" = some "" := by
      simp [request, Backend.prepared_request, Backend.putRequest_condition, immutable, conditional]
    have creating : Creating holds (backend.objectKey key) request flight :=
      run_induction link backend.maxAttempts
        (fun _ creating event => creating.step keeps (backend.putRequest_writes key _ options)
          condition sendable backend.maxAttempts event)
        (creating_launch absent) events
    obtain ⟨created, succeeds, fails⟩ := creating.outcome ended
    exact ⟨succeeds, created, fails⟩
  | false =>
    have stuck : Unsendable request store flight :=
      run_induction link backend.maxAttempts
        (fun _ stuck event => stuck.step sendable backend.maxAttempts event)
        unsendable_launch events
    obtain ⟨untouched, beaten, failure, failed, unnamed⟩ := stuck.outcome ended
    refine ⟨⟨fun succeeded => ?_, fun h => absurd h beaten⟩, untouched, failure, failed, unnamed⟩
    rw [failed] at succeeded
    cases succeeded

end Launch

def toShelf (events : List Event) : Flight Shelf :=
  (launch (Shelf.backend "log/" true) "checkpoint" [104, 105] { immutable := true } {}).run
    (Shelf.link 1000 fun _ => ⟨0⟩) (Shelf.backend "log/" true).maxAttempts events

/-- The hedge is handled first and answered first. -/
def hedgeAhead : List Event :=
  [.poll, .wait 75000000, .poll, .handle .hedge, .handle .primary, .answer .hedge, .poll]

theorem create_only_outcome_on_shelf :
    ∃ outcome, (toShelf hedgeAhead).upload.phase.outcome? = some outcome ∧
      outcome.result = .ok () ∧ (toShelf hedgeAhead).Foremost outcome.winner := by
  have completed : (toShelf hedgeAhead).upload.phase.outcome? = some ⟨.ok (), .hedge, true⟩ := rfl
  have outcome := create_only_outcome (Shelf.createsOnly 1000 _ _) rfl rfl rfl hedgeAhead rfl
    completed
  exact ⟨_, completed, rfl, outcome.1.mp rfl⟩

/-- The primary is handled first, and yet the hedge is answered first. -/
def hedgeBehind : List Event :=
  [.poll, .handle .primary, .wait 75000000, .poll, .handle .hedge, .answer .hedge, .poll]

/-- Then the upload fails on its own condition: the primary has created the object. -/
theorem create_only_beaten_by_itself :
    (toShelf hedgeBehind).upload.phase.outcome? =
        some ⟨.error (.network .upload "checkpoint" (some 412) "the store answered 412"
          "no error code"), .hedge, true⟩ ∧
      (toShelf hedgeBehind).store.find? "log/checkpoint" = some ⟨[104, 105], none⟩ :=
  ⟨rfl, rfl⟩

end HedgedStore.Flight
