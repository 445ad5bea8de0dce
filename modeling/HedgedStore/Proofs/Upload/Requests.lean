import HedgedStore.Proofs.Store.Record
import HedgedStore.Proofs.Upload.Flight
import Mathlib.Data.List.Induction

/-! The requests of an upload. Everything that reaches the store on an upload's behalf is the one
request that the caller's data and options come to under the backend's configuration, whichever
attempt sends it and however often, and the upload ends with what one of them brought. -/
namespace HedgedStore

/-- The request to write that data and options come to under a configuration. -/
structure Request.Puts (config : StoreConfig) (key : String) (data : Bytes)
    (options : UploadOptions) (request : Request) : Prop where
  concerns : request.Concerns .put config.bucket (some (config.keyPrefix ++ key))
  plain : options.compress = false → request.body = data
  packed : options.compress = true → Gzip.gunzip request.body = .ok data
  length : request.header? "content-length" = some (toString request.body.length)
  encoding : request.header? "content-encoding" = if options.compress then some "gzip" else none
  type : request.header? "content-type" = some
    (if options.contentType.getD "" = "" then "application/octet-stream"
      else options.contentType.getD "")
  caching : request.header? "cache-control" =
    if options.immutable then some "public, max-age=604800, immutable" else none
  condition : request.header? "if-match" =
    if options.immutable = true ∧ (config.conditionalWrites = some true ∨
        config.conditionalWrites = none ∧ config.endpoint = some "https://fly.storage.tigris.dev")
    then some "" else none
  /-- No header stands there twice. -/
  once : (request.headers.map (·.1)).Nodup

namespace Backend

theorem ofConfig_eq_ok {config : StoreConfig} {backend : Backend}
    (built : Backend.ofConfig config = .ok backend) :
    backend.bucket = config.bucket ∧ backend.keyPrefix = config.keyPrefix ∧
      backend.conditionalWrites = config.usesConditionalWrites := by
  cases invalid : config.invalidity? with
  | some why => simp [Backend.ofConfig, invalid, throw, throwThe, MonadExceptOf.throw] at built
  | none =>
    cases credentials : config.credentials with
    | error why =>
      simp [Backend.ofConfig, invalid, credentials, throw, throwThe, MonadExceptOf.throw] at built
    | ok keys =>
      simp only [Backend.ofConfig, invalid, credentials] at built
      obtain rfl := Except.ok.inj built
      exact ⟨rfl, rfl, rfl⟩

section Headers

variable (backend : Backend) (key : String) (body : Bytes) (options : UploadOptions)

theorem putRequest_headers :
    (backend.putRequest key body options).header? "content-length" = some (toString body.length) ∧
    (backend.putRequest key body options).header? "content-type" =
      some options.resolvedContentType ∧
    (backend.putRequest key body options).header? "content-encoding" =
      (if options.compress then some "gzip" else none) ∧
    (backend.putRequest key body options).header? "cache-control" = options.cacheControl ∧
    ((backend.putRequest key body options).headers.map (·.1)).Nodup := by
  rcases options with ⟨contentType, _ | _, _ | _⟩ <;> cases h : backend.conditionalWrites <;>
    simp [putRequest, Request.header?, h, UploadOptions.cacheControl, List.lookup_cons,
      Gzip.encodingName]

end Headers

end Backend

theorem UploadOptions.resolvedContentType_eq (options : UploadOptions) :
    options.resolvedContentType =
      if options.contentType.getD "" = "" then "application/octet-stream"
      else options.contentType.getD "" := by
  obtain ⟨_ | contentType, compress, immutable⟩ := options
  · rfl
  · simp [resolvedContentType, defaultContentType, String.isEmpty_iff]

theorem StoreConfig.usesConditionalWrites_iff (config : StoreConfig) :
    config.usesConditionalWrites = true ↔ config.conditionalWrites = some true ∨
      config.conditionalWrites = none ∧ config.endpoint = some "https://fly.storage.tigris.dev" := by
  rw [usesConditionalWrites]
  rcases config.conditionalWrites with _ | _ | _ <;> simp [createOnlyEndpoint]

theorem Backend.upload_puts {config : StoreConfig} {backend : Backend}
    (built : Backend.ofConfig config = .ok backend) (key : String) (data : Bytes)
    (options : UploadOptions) :
    (backend.prepared key data options).request.Puts config key data options := by
  obtain ⟨bucket, keyPrefix, conditional⟩ := ofConfig_eq_ok built
  have headers := backend.putRequest_headers key (options.wireBody data) options
  rw [prepared_request]
  obtain ⟨length, type, encoding, caching, once⟩ := headers
  refine ⟨⟨rfl, bucket, ?_⟩, ?_, ?_, length, encoding, ?_, caching, ?_, once⟩
  · rw [← keyPrefix]
    rfl
  · intro plain
    simp [putRequest, UploadOptions.wireBody, plain]
  · intro packed
    simp [putRequest, UploadOptions.wireBody, packed, Gzip.gunzip_gzip]
  · rw [← UploadOptions.resolvedContentType_eq]
    exact type
  · rw [putRequest_condition, conditional]
    simp only [Bool.and_eq_true, StoreConfig.usesConditionalWrites_iff]

namespace Flight

variable {σ : Type} {link : Link σ} {key : String} {request : Request}

/-- What a record of exchanges has to show for the result of an attempt. -/
def Borne (request : Request) (record : List (Request × Exchange))
    (result : Except Refusal Unit) : Prop :=
  (∃ entry ∈ record, entry.2.Brings Answer.accepted result) ∨
    request.isSendable = false ∧ result = .error Link.unsendable

theorem Borne.mono {record more : List (Request × Exchange)} {result : Except Refusal Unit}
    (borne : Borne request record result) : Borne request (record ++ more) result := by
  rcases borne with ⟨entry, mem, brings⟩ | unsendable
  · exact .inl ⟨entry, List.mem_append_left more mem, brings⟩
  · exact .inr unsendable

/-- An upload on its way, over a link that writes down what passes over it. -/
structure Posts (key : String) (request : Request) (flight : Flight (σ × List (Request × Exchange))) :
    Prop where
  coherent : flight.Coherent
  named : flight.upload.key = key
  same : flight.upload.request = request
  astray : ∀ shipment ∈ flight.strays, shipment.request = request
  written : ∀ entry ∈ flight.store.2, entry.1 = request
  told : flight.Told fun _ => Borne request flight.store.2
  decided : ∀ outcome, flight.upload.phase = .finished outcome →
    ∃ result, outcome.result = result.mapError (Backend.refused .upload key) ∧
      Borne request flight.store.2 result

variable {flight : Flight (σ × List (Request × Exchange))}

theorem Posts.poll (h : Posts key request flight) : Posts key request flight.poll := by
  have polled := polled h.coherent
  have coherent := polled.coherent h.coherent
  have told := polled.told h.told
  generalize flight.poll = next at polled coherent told
  cases polled with
  | idle => exact h
  | begin phase => exact ⟨coherent, h.named, h.same, h.astray, h.written, told, nofun⟩
  | beginBoth phase => exact ⟨coherent, h.named, h.same, h.astray, h.written, told, nofun⟩
  | hedge phase => exact ⟨coherent, h.named, h.same, h.astray, h.written, told, nofun⟩
  | finish hedged phase alone answered =>
    rename_i winner result
    have borne := h.told winner _ result answered rfl
    refine ⟨coherent, h.named, h.same, ?_, h.written, told, ?_⟩
    · intro shipment stray
      rcases List.mem_append.mp stray with old | new
      · exact h.astray shipment old
      · exact mem_pending new ▸ h.same
    · intro outcome ended
      obtain rfl := Hedge.Phase.finished.inj ended
      exact ⟨result, by rw [← h.named]; rfl, borne⟩

/-- The store's work on a request adds its exchanges to the record. -/
theorem deliver_posts (link : Link σ) (attempts : Nat)
    (flight : Flight (σ × List (Request × Exchange))) (shipment : Shipment) :
    ∃ exchanges : List Exchange,
      (flight.deliver link.recorded attempts shipment).2.store.2 =
        flight.store.2 ++ exchanges.map (shipment.request, ·) ∧
      Borne shipment.request (flight.deliver link.recorded attempts shipment).2.store.2
        (flight.deliver link.recorded attempts shipment).1 := by
  obtain ⟨⟨store, record⟩, upload, number, now, stages, strays, handled⟩ := flight
  simp only [deliver, Link.recorded_settle]
  refine ⟨_, rfl, ?_⟩
  cases sendable : shipment.request.isSendable with
  | true =>
    obtain ⟨exchange, mem, brings⟩ :=
      link.settle_brings Answer.accepted shipment.request sendable attempts store
    exact .inl ⟨(shipment.request, exchange),
      List.mem_append_right record (List.mem_map_of_mem mem), brings⟩
  | false => exact .inr ⟨sendable, by rw [Link.settle_of_unsendable sendable]⟩

theorem Posts.deliver (h : Posts key request flight) (link : Link σ) (attempts : Nat)
    {shipment : Shipment} (same : shipment.request = request) :
    Posts key request (flight.deliver link.recorded attempts shipment).2 ∧
      Borne request (flight.deliver link.recorded attempts shipment).2.store.2
        (flight.deliver link.recorded attempts shipment).1 := by
  obtain ⟨exchanges, record, borne⟩ := deliver_posts link attempts flight shipment
  rw [same] at record borne
  refine ⟨?_, borne⟩
  constructor
  case coherent => exact coherent_of_same h.coherent rfl fun _ => Iff.rfl
  case named => exact h.named
  case same => exact h.same
  case astray => exact h.astray
  case written =>
    intro entry mem
    rw [record] at mem
    rcases List.mem_append.mp mem with old | new
    · exact h.written entry old
    · obtain ⟨exchange, -, rfl⟩ := List.mem_map.mp new
      rfl
  case told =>
    rw [record]
    exact h.told.imp fun _ _ earlier => earlier.mono
  case decided =>
    intro outcome ended
    obtain ⟨result, adopted, earlier⟩ := h.decided outcome ended
    rw [record]
    exact ⟨result, adopted, earlier.mono⟩

theorem Posts.setStage (h : Posts key request flight) (attempt : Hedge.Attempt) {stage : Stage}
    (out : flight.stages attempt ≠ none)
    (told : ∀ result, stage.result? = some result → Borne request flight.store.2 result) :
    Posts key request (flight.setStage attempt (some stage)) where
  coherent := by
    refine coherent_of_same h.coherent rfl fun other => ?_
    by_cases own : other = attempt
    · simp [Flight.setStage, own, out]
    · simp [Flight.setStage, own]
  named := h.named
  same := h.same
  astray := h.astray
  written := h.written
  told := h.told.setStage attempt told
  decided := h.decided

theorem Posts.lose (h : Posts key request flight) (place : Nat) :
    Posts key request { flight with strays := flight.strays.eraseIdx place } where
  coherent := h.coherent
  named := h.named
  same := h.same
  astray := fun shipment stray => h.astray shipment (List.mem_of_mem_eraseIdx stray)
  written := h.written
  told := h.told
  decided := h.decided

theorem Posts.step (attempts : Nat) (h : Posts key request flight) (event : Event) :
    Posts key request (flight.step link.recorded attempts event) := by
  cases event with
  | wait nanos => exact ⟨h.coherent, h.named, h.same, h.astray, h.written, h.told, h.decided⟩
  | poll => exact h.poll
  | handle attempt =>
    simp only [Flight.step]
    split
    · rename_i sent
      have same : (flight.shipment attempt).request = request := h.same
      obtain ⟨delivered, borne⟩ := h.deliver link attempts same
      refine delivered.setStage attempt (by simp [sent]) fun result done => ?_
      obtain rfl := Option.some.inj done
      exact borne
    · exact h
  | answer attempt =>
    simp only [Flight.step]
    split
    · rename_i result settled
      refine h.setStage attempt (by simp [settled]) fun later done => ?_
      exact h.told attempt _ later settled done
    · exact h
  | arrive place =>
    simp only [Flight.step]
    split
    · rename_i shipment found
      have same := h.astray shipment (List.mem_of_getElem? found)
      exact (h.deliver link attempts same).1.lose place
    · exact h
  | lose place => exact h.lose place

theorem posts_launch (backend : Backend) (key : String) (data : Bytes) (options : UploadOptions)
    (store : σ) :
    Posts key (backend.prepared key data options).request
      (launch backend key data options (store, [])) where
  coherent := fun _ => rfl
  named := rfl
  same := rfl
  astray := nofun
  written := nofun
  told := nofun
  decided := nofun

/-! The race adopts an answer that is in. -/

section Adopted

variable {σ : Type} (link : Link σ) (attempts : Nat)

/-- Between polls the upload stays as it is. -/
theorem step_upload (flight : Flight σ) {event : Event} (unpolled : event ≠ .poll) :
    (flight.step link attempts event).upload = flight.upload := by
  cases event with
  | wait nanos => rfl
  | poll => exact absurd rfl unpolled
  | handle attempt =>
    simp only [step]
    split <;> rfl
  | answer attempt =>
    simp only [step]
    split <;> rfl
  | arrive place =>
    simp only [step]
    split <;> rfl
  | lose place => rfl

theorem Polled.adopted {flight next : Flight σ} (polled : Polled flight next)
    {outcome : Hedge.Outcome (Except Failure Unit)} (ended : next.upload.phase = .finished outcome) :
    flight.upload.phase = .finished outcome ∨
      ∃ result, flight.stages outcome.winner = some (.answered result) ∧
        outcome.result = result.mapError flight.upload.refused := by
  cases polled with
  | idle => exact .inl ended
  | begin phase => cases ended
  | beginBoth phase => cases ended
  | hedge phase => cases ended
  | finish hedged phase alone answered =>
    obtain rfl := Hedge.Phase.finished.inj ended
    exact .inr ⟨_, answered, rfl⟩

/-- A race that is over was ended by a poll, which found the winner's answer. -/
theorem run_adopted {flight : Flight σ} (coherent : flight.Coherent)
    (going : flight.upload.phase.outcome? = none) (events : List Event)
    {outcome : Hedge.Outcome (Except Failure Unit)}
    (ended : (flight.run link attempts events).upload.phase = .finished outcome) :
    ∃ before after result, events = before ++ .poll :: after ∧
      (flight.run link attempts before).stages outcome.winner = some (.answered result) ∧
      outcome.result =
        result.mapError (flight.run link attempts before).upload.refused := by
  induction events using List.reverseRecOn with
  | nil =>
    rw [run, List.foldl_nil] at ended
    rw [ended] at going
    cases going
  | append_singleton events event ih =>
    have earlier : (flight.run link attempts events).upload.phase = .finished outcome →
        ∃ before after result, events ++ [event] = before ++ .poll :: after ∧
          (flight.run link attempts before).stages outcome.winner = some (.answered result) ∧
          outcome.result =
            result.mapError (flight.run link attempts before).upload.refused := by
      intro ended
      obtain ⟨before, after, result, rfl, found⟩ := ih ended
      exact ⟨before, after ++ [event], result, by simp, found⟩
    rw [run, List.foldl_append, List.foldl_cons, List.foldl_nil, ← run] at ended
    by_cases poll : event = .poll
    · subst poll
      have kept : ∀ flight : Flight σ, flight.Coherent → ∀ event,
          (flight.step link attempts event).Coherent :=
        fun _ coherent event => coherent_step link attempts coherent event
      have before_coherent := run_induction link attempts kept coherent events
      rcases (polled before_coherent).adopted ended with past | ⟨result, answered, adopted⟩
      · exact earlier past
      · exact ⟨events, [], result, rfl, answered, adopted⟩
    · rw [step_upload link attempts _ poll] at ended
      exact earlier ended

end Adopted

/-- An upload under way over a recorded link, after so many events. -/
def posted (link : Link σ) (backend : Backend) (key : String) (data : Bytes)
    (options : UploadOptions) (store : σ) (events : List Event) :
    Flight (σ × List (Request × Exchange)) :=
  (launch backend key data options (store, [])).run link.recorded backend.maxAttempts events

theorem posts_run (link : Link σ) (backend : Backend) (key : String) (data : Bytes)
    (options : UploadOptions) (store : σ) (events : List Event) :
    Posts key (backend.prepared key data options).request
      (posted link backend key data options store events) :=
  run_induction link.recorded backend.maxAttempts
    (fun _ posts event => posts.step backend.maxAttempts event)
    (posts_launch backend key data options store) events

/-- All that an upload sends is the one request that its data and options describe: as often as
the store is asked, and whatever is still under way or astray. The upload ends with the answer of
the attempt that the race adopts: successfully only if the store has answered one of these
requests with success, and otherwise with the failure of the adopted attempt, which names the
caller's key. -/
theorem sends_described_request {config : StoreConfig} {backend : Backend}
    (built : Backend.ofConfig config = .ok backend) (link : Link σ) (key : String) (data : Bytes)
    (options : UploadOptions) (store : σ) (events : List Event) :
    ∃ request : Request, request.Puts config key data options ∧
      (∃ upload first, backend.upload key data options = .ok (upload, first) ∧
        upload.request = request) ∧
      (∀ entry ∈ (posted link backend key data options store events).store.2,
        entry.1 = request) ∧
      (∀ attempt,
        ((posted link backend key data options store events).shipment attempt).request =
          request) ∧
      (∀ shipment ∈ (posted link backend key data options store events).strays,
        shipment.request = request) ∧
      ∀ outcome,
        (posted link backend key data options store events).upload.phase.outcome? = some outcome →
        (∃ before after result, events = before ++ .poll :: after ∧
          (posted link backend key data options store before).stages outcome.winner =
            some (.answered result) ∧
          outcome.result = result.mapError (Backend.refused .upload key)) ∧
        (outcome.result = .ok () →
          ∃ entry ∈ (posted link backend key data options store events).store.2,
            ∃ answer, entry.2.Succeeds answer) ∧
        ∀ failure, outcome.result = .error failure →
          ∃ why, failure = .network .upload key why.status why.detail why.cause ∧
            ((∃ entry ∈ (posted link backend key data options store events).store.2,
              entry.2.Brings Answer.accepted (.error why : Except Refusal Unit)) ∨
            request.isSendable = false ∧ why = Link.unsendable) := by
  have posts := posts_run link backend key data options store
  refine ⟨_, Backend.upload_puts built key data options,
    ⟨_, _, backend.upload_eq key data options, rfl⟩, (posts events).written,
    fun _ => (posts events).same, (posts events).astray, fun outcome completed => ?_⟩
  have ended := Hedge.Phase.outcome_eq_some.mp completed
  obtain ⟨result, adopted, borne⟩ := (posts events).decided outcome ended
  refine ⟨?_, ?_, ?_⟩
  · obtain ⟨before, after, result, split, answered, adopted⟩ :=
      run_adopted link.recorded backend.maxAttempts
        (posts_launch backend key data options store).coherent rfl events ended
    refine ⟨before, after, result, split, answered, ?_⟩
    rw [adopted]
    exact congrArg (fun name => result.mapError (Backend.refused .upload name)) (posts before).named
  · intro succeeded
    rw [adopted] at succeeded
    cases result with
    | error why => cases succeeded
    | ok _ =>
      rcases borne with ⟨entry, mem, brings⟩ | ⟨-, failed⟩
      · exact ⟨entry, mem, brings.succeeds⟩
      · cases failed
  · intro failure failed
    rw [adopted] at failed
    cases result with
    | ok _ => cases failed
    | error why =>
      refine ⟨why, (Except.error.inj failed).symm, ?_⟩
      rcases borne with brought | ⟨unsendable, same⟩
      · exact .inl brought
      · exact .inr ⟨unsendable, Except.error.inj same⟩

/-- A store that is in trouble when it is first asked. -/
def troubled : Link Nat :=
  ⟨fun asked _ => (⟨some { status := if asked = 0 then 503 else 200 }, ⟨0⟩⟩, asked + 1)⟩

def fly : StoreConfig :=
  { region := "auto", bucket := "objects", endpoint := some "https://fly.storage.tigris.dev"
    keyPrefix := "log/" }

/-- The primary is sent again, the hedge is answered first, and it is the same request thrice. -/
theorem sends_described_request_thrice :
    ∃ backend request, Backend.ofConfig fly = .ok backend ∧
      request.Puts fly "tile" [104, 105] { immutable := true } ∧
      request.header? "if-match" = some "" ∧
      (posted troubled backend "tile" [104, 105] { immutable := true } 0
        [.poll, .handle .primary, .wait 75000000, .poll, .handle .hedge, .answer .hedge,
          .poll]).store.2.map (·.1) = [request, request, request] ∧
      ∃ outcome, (posted troubled backend "tile" [104, 105] { immutable := true } 0
        [.poll, .handle .primary, .wait 75000000, .poll, .handle .hedge, .answer .hedge,
          .poll]).upload.phase.outcome? = some outcome ∧
        outcome = ⟨.ok (), .hedge, true⟩ := by
  obtain ⟨backend, built⟩ : ∃ backend, Backend.ofConfig fly = .ok backend := ⟨_, rfl⟩
  obtain rfl := Except.ok.inj built
  obtain ⟨request, puts, -, written, -⟩ := sends_described_request built troubled "tile" [104, 105]
    { immutable := true } 0
    [.poll, .handle .primary, .wait 75000000, .poll, .handle .hedge, .answer .hedge, .poll]
  refine ⟨_, request, built, puts, ?_, ?_, _, rfl, rfl⟩
  · rw [puts.condition]
    decide
  · refine List.eq_replicate_iff.mpr ⟨rfl, fun sent mem => ?_⟩
    obtain ⟨entry, here, rfl⟩ := List.mem_map.mp mem
    exact written entry here

end Flight

end HedgedStore
