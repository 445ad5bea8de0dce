import HedgedStore.Proofs.Store.Shelf
import HedgedStore.Proofs.Upload.Flight

/-! A caller that uploads to one key again and again, without a condition. Each upload begins when
the one before it has returned success, so requests of two uploads are never under way at once. But
an upload whose race was hedged may leave a request behind, and that one may reach the store when
later uploads have long returned. The store keeps what it has handled last, so the object is that of
the last upload unless such a request came after it. -/
namespace HedgedStore

/-- The race is over; there were two attempts, and it was not this one that was adopted. -/
def Upload.Abandons (upload : Upload) (attempt : Hedge.Attempt) : Prop :=
  ∃ outcome, upload.phase = .finished outcome ∧ outcome.hedged = true ∧ outcome.winner ≠ attempt

structure Itinerary (σ : Type) where
  flight : Flight σ
  earlier : List Upload := []
  orders : List (Bytes × UploadOptions)

namespace Itinerary

variable {σ : Type}

inductive Event where
  | within (event : Flight.Event)
  | next

def uploads (trip : Itinerary σ) : List Upload := trip.earlier ++ [trip.flight.upload]

def start (backend : Backend) (key : String) (order : Bytes × UploadOptions)
    (orders : List (Bytes × UploadOptions)) (store : σ) : Itinerary σ :=
  { flight := .launch backend key order.1 order.2 store, orders }

/-- The caller goes on only when the upload before has returned success. -/
def step (link : Link σ) (backend : Backend) (key : String) (trip : Itinerary σ) :
    Event → Itinerary σ
  | .within event =>
    { trip with flight := trip.flight.step link backend.maxAttempts event }
  | .next =>
    match trip.flight.upload.result?, trip.orders with
    | some (.ok ()), order :: orders =>
      { flight := { trip.flight with
          upload := backend.prepared key order.1 order.2
          number := trip.flight.number + 1
          now := 0
          stages := fun _ => none }
        earlier := trip.uploads
        orders }
    | _, _ => trip

def run (link : Link σ) (backend : Backend) (key : String) (trip : Itinerary σ)
    (events : List Event) : Itinerary σ :=
  events.foldl (step link backend key) trip

/-- The request is one of the upload that the shipment names. -/
def Owns (trip : Itinerary σ) (shipment : Shipment) : Prop :=
  ∃ upload, trip.uploads[shipment.number]? = some upload ∧ shipment.request = upload.request

/-- The request is that of an attempt which has lost its race. -/
def Abandons (trip : Itinerary σ) (shipment : Shipment) : Prop :=
  ∃ upload, trip.uploads[shipment.number]? = some upload ∧ upload.Abandons shipment.attempt

def Advances (trip next : Itinerary σ) : Prop :=
  ∀ (number : Nat) (upload : Upload), trip.uploads[number]? = some upload →
    ∃ later, next.uploads[number]? = some later ∧ later.request = upload.request ∧
      ∀ attempt, upload.Abandons attempt → later.Abandons attempt

theorem Advances.owns {trip next : Itinerary σ} (advances : trip.Advances next)
    {shipment : Shipment} (owns : trip.Owns shipment) : next.Owns shipment := by
  obtain ⟨upload, found, same⟩ := owns
  obtain ⟨later, there, request, -⟩ := advances _ _ found
  exact ⟨later, there, same.trans request.symm⟩

theorem Advances.abandons {trip next : Itinerary σ} (advances : trip.Advances next)
    {shipment : Shipment} (lost : trip.Abandons shipment) : next.Abandons shipment := by
  obtain ⟨upload, found, abandoned⟩ := lost
  obtain ⟨later, there, -, still⟩ := advances _ _ found
  exact ⟨later, there, still _ abandoned⟩

theorem advances_of_upload {trip next : Itinerary σ} (earlier : next.earlier = trip.earlier)
    (request : next.flight.upload.request = trip.flight.upload.request)
    (still : ∀ attempt, trip.flight.upload.Abandons attempt →
      next.flight.upload.Abandons attempt) : trip.Advances next := by
  intro number upload found
  rw [uploads] at found
  by_cases before : number < trip.earlier.length
  · rw [List.getElem?_append_left before] at found
    refine ⟨upload, ?_, rfl, fun _ => id⟩
    rw [uploads, earlier, List.getElem?_append_left before, found]
  · rw [List.getElem?_append_right (Nat.le_of_not_lt before),
      List.getElem?_singleton] at found
    split at found
    · rename_i now
      obtain rfl := Option.some.inj found
      refine ⟨next.flight.upload, ?_, request, still⟩
      rw [uploads, earlier, List.getElem?_append_right (Nat.le_of_not_lt before),
        List.getElem?_singleton, if_pos now]
    · cases found

theorem advances_of_append {trip next : Itinerary σ} (earlier : next.earlier = trip.uploads) :
    trip.Advances next := by
  intro number upload found
  have before : number < trip.uploads.length := (List.getElem?_eq_some_iff.mp found).1
  refine ⟨upload, ?_, rfl, fun _ => id⟩
  rw [uploads, earlier, List.getElem?_append_left before, found]

/-! What the store has got and what may still come, with the uploads that all of it is from. -/

structure Ledger (holds : σ → String → Option StoredObject) (key : String) (trip : Itinerary σ) :
    Prop where
  owned : ∀ shipment ∈ trip.flight.handled, trip.Owns shipment
  astray : ∀ shipment ∈ trip.flight.strays,
    trip.Owns shipment ∧ trip.Abandons shipment
  /-- The object is that of the request handled last. -/
  kept : ∀ final, trip.flight.handled.getLast? = some final →
    holds trip.flight.store key = some final.request.object
  /-- Nothing is handled after a later upload but what a hedged one has left behind. -/
  lead : ∀ final, trip.flight.handled.getLast? = some final →
    ∀ shipment ∈ trip.flight.handled,
      shipment.number ≤ final.number ∨ trip.Abandons final
  carried : ∀ shipment ∈ trip.flight.handled, shipment.request.isSendable = true

section Ledger

variable {holds : σ → String → Option StoredObject} {key : String} {trip next : Itinerary σ}

theorem Ledger.advance (h : Ledger holds key trip) (advances : trip.Advances next)
    (store : next.flight.store = trip.flight.store)
    (handled : next.flight.handled = trip.flight.handled)
    (strays : ∀ shipment ∈ next.flight.strays, shipment ∈ trip.flight.strays ∨
      (next.Owns shipment ∧ next.Abandons shipment)) : Ledger holds key next where
  owned shipment member := advances.owns (h.owned shipment (handled ▸ member))
  astray shipment stray := by
    rcases strays shipment stray with old | new
    · exact ⟨advances.owns (h.astray shipment old).1, advances.abandons (h.astray shipment old).2⟩
    · exact new
  kept final last := by rw [store]; exact h.kept final (handled ▸ last)
  lead final last shipment member := by
    rcases h.lead final (handled ▸ last) shipment (handled ▸ member) with le | lost
    · exact .inl le
    · exact .inr (advances.abandons lost)
  carried shipment member := h.carried shipment (handled ▸ member)

variable {link : Link σ} {bucket : String}

def Plain (bucket key : String) (upload : Upload) : Prop :=
  upload.request.Writes bucket key ∧ upload.request.header? "if-match" = none

theorem deliver_plain (keeps : link.Overwrites bucket holds) {upload : Upload}
    (plain : Plain bucket key upload) (attempts : Nat) (flight : Flight σ) {shipment : Shipment}
    (same : shipment.request = upload.request) (sendable : shipment.request.isSendable = true) :
    (flight.deliver link attempts shipment).1 = .ok () ∧
      holds (flight.deliver link attempts shipment).2.store key = some shipment.request.object := by
  have writes : shipment.request.Writes bucket key := same ▸ plain.1
  have free : shipment.request.header? "if-match" = none := same ▸ plain.2
  obtain ⟨result, kept⟩ := keeps.settle writes free sendable attempts flight.store
  refine ⟨result, ?_⟩
  simp only [Flight.deliver]
  rw [kept, Function.update_self]

/-- A request that reaches the store is of the upload under way, or was left behind by a hedged
one. -/
theorem Ledger.deliver (h : Ledger holds key trip) (keeps : link.Overwrites bucket holds)
    (plain : ∀ upload ∈ trip.uploads, Plain bucket key upload) (attempts : Nat)
    {shipment : Shipment} (owns : trip.Owns shipment)
    (front : (∀ other ∈ trip.flight.handled, other.number ≤ shipment.number) ∨
      trip.Abandons shipment) :
    Ledger holds key
      { trip with flight := (trip.flight.deliver link attempts shipment).2 } := by
  cases sendable : shipment.request.isSendable with
  | false =>
    rw [Flight.deliver_of_unsendable link attempts sendable]
    exact h
  | true =>
    obtain ⟨upload, found, same⟩ := owns
    obtain ⟨-, kept⟩ := deliver_plain keeps (plain upload (List.mem_of_getElem? found)) attempts
      trip.flight same sendable
    have handled : (trip.flight.deliver link attempts shipment).2.handled =
        trip.flight.handled ++ [shipment] := Flight.deliver_handled link attempts sendable
    refine ⟨?_, h.astray, ?_, ?_, ?_⟩
    · have own : trip.Owns shipment := ⟨upload, found, same⟩
      have owned := List.forall_mem_append.mpr ⟨h.owned, List.forall_mem_singleton.mpr own⟩
      exact fun other member => owned other (handled ▸ member)
    · intro final last
      rw [handled, List.getLast?_concat] at last
      obtain rfl := Option.some.inj last
      exact kept
    · intro final last other member
      rw [handled, List.getLast?_concat] at last
      obtain rfl := Option.some.inj last
      rw [handled] at member
      rcases front with first | lost
      · rcases List.mem_append.mp member with old | new
        · exact .inl (first other old)
        · exact .inl (List.mem_singleton.mp new ▸ Nat.le_refl _)
      · exact .inr lost
    · have carried := List.forall_mem_append.mpr ⟨h.carried, List.forall_mem_singleton.mpr sendable⟩
      exact fun other member => carried other (handled ▸ member)

end Ledger

/-! An itinerary on its way. -/

def Fulfilled (flight : Flight σ) : Except Refusal Unit → Prop
  | .ok () => ∃ shipment ∈ flight.handled, shipment.number = flight.number
  | .error _ => flight.upload.request.isSendable = false

theorem Fulfilled.mono {flight next : Flight σ} {result : Except Refusal Unit}
    (fulfilled : Fulfilled flight result) (upload : next.upload = flight.upload)
    (number : next.number = flight.number)
    (handled : ∀ shipment ∈ flight.handled, shipment ∈ next.handled) : Fulfilled next result := by
  cases result with
  | ok =>
    obtain ⟨shipment, member, own⟩ := fulfilled
    exact ⟨shipment, handled shipment member, own.trans number.symm⟩
  | error why =>
    simp only [Fulfilled] at fulfilled ⊢
    rw [upload, fulfilled]

structure Serial (holds : σ → String → Option StoredObject) (bucket key : String)
    (trip : Itinerary σ) : Prop where
  coherent : trip.flight.Coherent
  counted : trip.flight.number = trip.earlier.length
  plain : ∀ upload ∈ trip.uploads, Plain bucket key upload
  ledger : Ledger holds key trip
  told : trip.flight.Told fun _ result => Fulfilled trip.flight result
  unbegun : trip.flight.upload.phase = .created →
    ∀ shipment ∈ trip.flight.handled, shipment.number ≠ trip.flight.number
  decided : ∀ outcome, trip.flight.upload.phase = .finished outcome →
    ∃ result, outcome.result = result.mapError trip.flight.upload.refused ∧
      Fulfilled trip.flight result
  /-- The store has handled a request of each upload that has returned. -/
  returned : ∀ (number : Nat) (upload : Upload), trip.earlier[number]? = some upload →
    upload.result? = some (.ok ()) ∧ ∃ shipment ∈ trip.flight.handled, shipment.number = number

section Serial

variable {holds : σ → String → Option StoredObject} {bucket key : String} {trip : Itinerary σ}

theorem uploads_current (counted : trip.flight.number = trip.earlier.length) :
    trip.uploads[trip.flight.number]? = some trip.flight.upload := by
  simp [uploads, counted]

theorem Owns.number_le (h : Serial holds bucket key trip) {shipment : Shipment}
    (owns : trip.Owns shipment) : shipment.number ≤ trip.flight.number := by
  obtain ⟨upload, found, -⟩ := owns
  have bound := (List.getElem?_eq_some_iff.mp found).1
  simp only [uploads, List.length_append, List.length_singleton] at bound
  have counted := h.counted
  omega

theorem Serial.plain_of_same (h : Serial holds bucket key trip) {next : Itinerary σ}
    (earlier : next.earlier = trip.earlier)
    (request : next.flight.upload.request = trip.flight.upload.request) :
    ∀ upload ∈ next.uploads, Plain bucket key upload := by
  obtain ⟨writes, free⟩ := h.plain trip.flight.upload (by simp [uploads])
  rw [uploads, earlier]
  refine List.forall_mem_append.mpr ⟨?_, List.forall_mem_singleton.mpr ?_⟩
  · exact fun upload member => h.plain upload (List.mem_append_left _ member)
  · exact ⟨request ▸ writes, request ▸ free⟩

/-- Where the upload under way stays as it is, what was found out about it stays true. -/
theorem Serial.carry (h : Serial holds bucket key trip) {next : Flight σ}
    (upload : next.upload = trip.flight.upload) (number : next.number = trip.flight.number)
    (handled : ∀ shipment ∈ trip.flight.handled, shipment ∈ next.handled)
    (coherent : next.Coherent) (ledger : Ledger holds key { trip with flight := next })
    (told : next.Told fun _ result => Fulfilled next result)
    (unbegun : next.upload.phase = .created →
      ∀ shipment ∈ next.handled, shipment.number ≠ next.number) :
    Serial holds bucket key { trip with flight := next } where
  coherent := coherent
  counted := number.trans h.counted
  plain := h.plain_of_same rfl (congrArg Upload.request upload)
  ledger := ledger
  told := told
  unbegun := unbegun
  decided := by
    intro outcome ended
    rw [upload] at ended ⊢
    obtain ⟨result, adopted, fulfilled⟩ := h.decided outcome ended
    exact ⟨result, adopted, fulfilled.mono upload number handled⟩
  returned := by
    intro place earlier found
    obtain ⟨succeeded, shipment, member, own⟩ := h.returned place earlier found
    exact ⟨succeeded, shipment, handled shipment member, own⟩

theorem Serial.onward (h : Serial holds bucket key trip) {phase : Hedge.Phase (Except Failure Unit)}
    {stages : Hedge.Attempt → Option Stage}
    (going : trip.flight.upload.phase.outcome? = none) (still : phase.outcome? = none)
    (begun : phase ≠ .created)
    (coherent : ({ trip.flight with upload := { trip.flight.upload with phase }, stages } :
      Flight σ).Coherent)
    (told : ({ trip.flight with upload := { trip.flight.upload with phase }, stages } :
      Flight σ).Told fun _ result => Fulfilled trip.flight result) :
    Serial holds bucket key { trip with flight := { trip.flight with
      upload := { trip.flight.upload with phase }, stages } } := by
  have none_lost : ∀ attempt, trip.flight.upload.Abandons attempt →
      ({ trip.flight.upload with phase } : Upload).Abandons attempt := by
    rintro attempt ⟨outcome, ended, -⟩
    simp [ended, Hedge.Phase.outcome?] at going
  refine ⟨coherent, h.counted, h.plain_of_same rfl rfl, ?_, ?_,
    fun created => absurd created begun, ?_, h.returned⟩
  · exact h.ledger.advance (advances_of_upload rfl rfl none_lost) rfl rfl fun _ stray => .inl stray
  · exact told.imp fun _ result fulfilled => by
      cases result <;> exact fulfilled
  · intro outcome ended
    simp [show phase = .finished outcome from ended, Hedge.Phase.outcome?] at still

theorem Serial.poll (h : Serial holds bucket key trip) :
    Serial holds bucket key { trip with flight := trip.flight.poll } := by
  have polled := Flight.polled h.coherent
  have coherent := polled.coherent h.coherent
  have told := polled.told h.told
  have idle := h.coherent
  generalize trip.flight.poll = next at polled coherent told
  cases polled with
  | idle => exact h
  | begin phase =>
    exact h.onward (by rw [phase]; rfl) rfl nofun coherent told
  | beginBoth phase =>
    exact h.onward (by rw [phase]; rfl) rfl nofun coherent told
  | hedge phase =>
    exact h.onward (by rw [phase]; rfl) rfl nofun coherent told
  | finish hedged phase alone answered =>
    rename_i winner result
    have fulfilled : Fulfilled trip.flight result := h.told winner _ result answered rfl
    have none_lost : ∀ attempt, ¬ trip.flight.upload.Abandons attempt := by
      rintro attempt ⟨outcome, ended, -⟩
      rw [ended] at phase
      cases hedged <;> simp at phase
    refine ⟨coherent, h.counted, h.plain_of_same rfl rfl, ?_, ?_, nofun, ?_, h.returned⟩
    · refine h.ledger.advance (advances_of_upload rfl rfl fun attempt lost =>
        absurd lost (none_lost attempt)) rfl rfl fun shipment stray => ?_
      rcases List.mem_append.mp stray with old | new
      · exact .inl old
      · -- A primary that was alone leaves nothing behind.
        have both : hedged = true := by
          cases single : hedged with
          | true => rfl
          | false =>
            rw [single] at phase
            simp only [Flight.Coherent, phase] at idle
            rw [alone single] at new
            simp [Flight.pending, Hedge.Attempt.other, idle.2] at new
        obtain rfl := Flight.mem_pending new
        exact .inr ⟨⟨_, uploads_current h.counted, rfl⟩, _, uploads_current h.counted, _, rfl, both,
          winner.ne_other⟩
    · exact told.imp fun _ result fulfilled => by
        cases result <;> exact fulfilled
    · intro outcome ended
      obtain rfl := Hedge.Phase.finished.inj ended
      refine ⟨result, rfl, ?_⟩
      cases result <;> exact fulfilled

/-- A request of the upload under way, or one that was left behind, reaches the store. -/
theorem Serial.deliver {link : Link σ} (h : Serial holds bucket key trip)
    (keeps : link.Overwrites bucket holds) (attempts : Nat) {shipment : Shipment}
    (owns : trip.Owns shipment)
    (front : shipment.number = trip.flight.number ∨ trip.Abandons shipment)
    (begun : trip.flight.upload.phase = .created → shipment.number ≠ trip.flight.number) :
    Serial holds bucket key
      { trip with flight := (trip.flight.deliver link attempts shipment).2 } := by
  have first : (∀ other ∈ trip.flight.handled, other.number ≤ shipment.number) ∨
      trip.Abandons shipment := by
    rcases front with now | lost
    · exact .inl fun other member => now ▸ (h.ledger.owned other member).number_le h
    · exact .inr lost
  have ledger := h.ledger.deliver keeps h.plain attempts owns first
  have more : ∀ other ∈ trip.flight.handled,
      other ∈ (trip.flight.deliver link attempts shipment).2.handled :=
    fun other member => List.mem_append_left _ member
  refine h.carry rfl rfl more h.coherent ledger ?_ ?_
  · intro attempt stage result out done
    exact (h.told attempt stage result out done).mono rfl rfl more
  · intro created other member
    rcases List.mem_append.mp member with old | new
    · exact h.unbegun created other old
    · split at new
      · exact List.mem_singleton.mp new ▸ begun created
      · cases new

/-- What the store makes of a request of the upload under way is what the result tells. -/
theorem Serial.fulfilled {link : Link σ} (h : Serial holds bucket key trip)
    (keeps : link.Overwrites bucket holds) (attempts : Nat) (attempt : Hedge.Attempt) :
    Fulfilled (trip.flight.deliver link attempts (trip.flight.shipment attempt)).2
      (trip.flight.deliver link attempts (trip.flight.shipment attempt)).1 := by
  cases sendable : (trip.flight.shipment attempt).request.isSendable with
  | false =>
    rw [Flight.deliver_of_unsendable link attempts sendable]
    exact sendable
  | true =>
    have plain := h.plain trip.flight.upload (by simp [uploads])
    obtain ⟨result, -⟩ := deliver_plain keeps plain attempts trip.flight rfl sendable
    rw [result]
    have handled : (trip.flight.deliver link attempts (trip.flight.shipment attempt)).2.handled =
        trip.flight.handled ++ [trip.flight.shipment attempt] :=
      Flight.deliver_handled link attempts sendable
    exact ⟨trip.flight.shipment attempt, by simp [handled], rfl⟩

theorem Serial.setStage (h : Serial holds bucket key trip) (attempt : Hedge.Attempt)
    {before stage : Stage} (out : trip.flight.stages attempt = some before)
    (fulfilled : ∀ result, stage.result? = some result → Fulfilled trip.flight result) :
    Serial holds bucket key
      { trip with flight := trip.flight.setStage attempt (some stage) } := by
  have same : ∀ other, (trip.flight.setStage attempt (some stage)).stages other = none ↔
      trip.flight.stages other = none := by
    intro other
    by_cases own : other = attempt
    · simp [Flight.setStage, own, out]
    · simp [Flight.setStage, own]
  refine h.carry rfl rfl (fun _ member => member) (Flight.coherent_of_same h.coherent rfl same)
    ?_ ?_ h.unbegun
  · exact h.ledger.advance (advances_of_upload rfl rfl fun _ => id) rfl rfl fun _ stray => .inl stray
  · refine (h.told.setStage attempt fulfilled).imp fun _ result fulfilled => ?_
    exact fulfilled.mono rfl rfl fun _ member => member

theorem Serial.lose (h : Serial holds bucket key trip) (place : Nat) :
    Serial holds bucket key { trip with flight := { trip.flight with
      strays := trip.flight.strays.eraseIdx place } } := by
  refine h.carry rfl rfl (fun _ member => member) h.coherent ?_ ?_ h.unbegun
  · exact h.ledger.advance (advances_of_upload rfl rfl fun _ => id) rfl rfl
      fun _ stray => .inl (List.mem_of_mem_eraseIdx stray)
  · exact Flight.Told.imp h.told fun _ result fulfilled =>
      fulfilled.mono rfl rfl fun _ member => member

theorem Serial.within {link : Link σ} (h : Serial holds bucket key trip)
    (keeps : link.Overwrites bucket holds) (attempts : Nat) (event : Flight.Event) :
    Serial holds bucket key { trip with flight := trip.flight.step link attempts event } := by
  have idle := h.coherent
  cases event with
  | wait nanos =>
    have ledger : Ledger holds key { trip with flight := { trip.flight with
        now := trip.flight.now + nanos } } :=
      h.ledger.advance (advances_of_upload rfl rfl fun _ => id) rfl rfl fun _ stray => .inl stray
    exact ⟨h.coherent, h.counted, h.plain, ledger, h.told, h.unbegun, h.decided, h.returned⟩
  | poll => exact h.poll
  | handle attempt =>
    simp only [Flight.step]
    split
    · rename_i sent
      have owns : trip.Owns (trip.flight.shipment attempt) := ⟨_, uploads_current h.counted, rfl⟩
      have begun : trip.flight.upload.phase ≠ .created := by
        intro created
        simp only [Flight.Coherent, created] at idle
        simp [idle] at sent
      have delivered := h.deliver keeps attempts owns (.inl rfl) (fun created => absurd created begun)
      refine delivered.setStage attempt sent fun result done => ?_
      obtain rfl := Option.some.inj done
      exact h.fulfilled keeps attempts attempt
    · exact h
  | answer attempt =>
    simp only [Flight.step]
    split
    · rename_i result settled
      refine h.setStage attempt settled fun other done => ?_
      exact h.told attempt _ other settled done
    · exact h
  | arrive place =>
    simp only [Flight.step]
    split
    · rename_i shipment stray
      obtain ⟨owns, lost⟩ := h.ledger.astray shipment (List.mem_of_getElem? stray)
      refine (h.deliver keeps attempts owns (.inr lost) fun created now => ?_).lose place
      obtain ⟨upload, found, outcome, ended, -⟩ := lost
      rw [now, uploads_current h.counted] at found
      obtain rfl := Option.some.inj found
      rw [created] at ended
      cases ended
    · exact h
  | lose place => exact h.lose place

theorem Serial.handled (h : Serial holds bucket key trip)
    (succeeded : trip.flight.upload.result? = some (.ok ())) :
    ∃ shipment ∈ trip.flight.handled, shipment.number = trip.flight.number := by
  obtain ⟨outcome, completed, ok⟩ := Option.map_eq_some_iff.mp succeeded
  obtain ⟨result, adopted, fulfilled⟩ := h.decided outcome (Hedge.Phase.outcome_eq_some.mp completed)
  cases result with
  | ok => exact fulfilled
  | error why =>
    rw [ok] at adopted
    cases adopted

/-- All uploads but the one under way have returned, and of each the store has handled a request. -/
theorem Serial.succeeded (h : Serial holds bucket key trip) {number : Nat} {upload : Upload}
    (found : trip.uploads[number]? = some upload) (now : number ≠ trip.flight.number) :
    upload.result? = some (.ok ()) ∧
      ∃ shipment ∈ trip.flight.handled, shipment.number = number := by
  have before : number < trip.earlier.length := by
    have bound := (List.getElem?_eq_some_iff.mp found).1
    simp only [uploads, List.length_append, List.length_singleton] at bound
    have counted := h.counted
    omega
  rw [uploads, List.getElem?_append_left before] at found
  exact h.returned number upload found

theorem Serial.advance (h : Serial holds bucket key trip)
    (succeeded : trip.flight.upload.result? = some (.ok ())) {upload : Upload}
    (created : upload.phase = .created) (plain : Plain bucket key upload)
    (orders : List (Bytes × UploadOptions)) :
    Serial holds bucket key
      { flight := { trip.flight with
          upload, number := trip.flight.number + 1, now := 0, stages := fun _ => none }
        earlier := trip.uploads
        orders } := by
  refine ⟨?_, ?_, ?_, ?_, nofun, ?_, ?_, ?_⟩
  · simp [Flight.Coherent, created]
  · simp [uploads, h.counted]
  · exact List.forall_mem_append.mpr ⟨h.plain, List.forall_mem_singleton.mpr plain⟩
  · exact h.ledger.advance (advances_of_append rfl) rfl rfl fun _ stray => .inl stray
  · intro _ shipment member
    exact Nat.ne_of_lt (Nat.lt_succ_of_le ((h.ledger.owned shipment member).number_le h))
  · intro outcome ended
    rw [show upload.phase = _ from ended] at created
    cases created
  · intro number other found
    by_cases now : number = trip.flight.number
    · subst now
      rw [uploads_current h.counted] at found
      obtain rfl := Option.some.inj found
      exact ⟨succeeded, h.handled succeeded⟩
    · exact h.succeeded found now

end Serial

/-! What remains in the store. -/

def Unconditional (backend : Backend) (orders : List (Bytes × UploadOptions)) : Prop :=
  ∀ order ∈ orders, (order.2.immutable && backend.conditionalWrites) = false

section Run

variable {link : Link σ} {backend : Backend} {holds : σ → String → Option StoredObject}
  {key : String}

theorem plain_upload {order : Bytes × UploadOptions}
    (free : (order.2.immutable && backend.conditionalWrites) = false) :
    Plain backend.bucket (backend.objectKey key) (backend.prepared key order.1 order.2) := by
  refine ⟨backend.putRequest_writes key _ order.2, ?_⟩
  simp [Backend.prepared_request, Backend.putRequest_condition, free]

theorem serial_step (keeps : link.Overwrites backend.bucket holds) {trip : Itinerary σ}
    (h : Serial holds backend.bucket (backend.objectKey key) trip ∧
      Unconditional backend trip.orders) (event : Event) :
    Serial holds backend.bucket (backend.objectKey key) (trip.step link backend key event) ∧
      Unconditional backend (trip.step link backend key event).orders := by
  obtain ⟨serial, free⟩ := h
  cases event with
  | within event => exact ⟨serial.within keeps backend.maxAttempts event, free⟩
  | next =>
    simp only [step]
    split
    · rename_i order orders succeeded more
      rw [more] at free
      exact ⟨serial.advance succeeded rfl (plain_upload (free order (by simp))) orders,
        fun other member => free other (by simp [member])⟩
    · exact ⟨serial, free⟩

theorem serial_start {order : Bytes × UploadOptions} {orders : List (Bytes × UploadOptions)}
    (free : Unconditional backend (order :: orders)) (store : σ) :
    Serial holds backend.bucket (backend.objectKey key)
      (start backend key order orders store) where
  coherent := fun _ => rfl
  counted := rfl
  plain := by
    intro upload member
    simp only [uploads, start, Flight.launch, List.nil_append, List.mem_singleton] at member
    rw [member]
    exact plain_upload (free order (by simp))
  ledger := ⟨nofun, nofun, nofun, nofun, nofun⟩
  told := nofun
  unbegun := nofun
  decided := nofun
  returned := by
    intro number upload found
    simp [start] at found

theorem serial_run (keeps : link.Overwrites backend.bucket holds) {trip : Itinerary σ}
    (h : Serial holds backend.bucket (backend.objectKey key) trip ∧
      Unconditional backend trip.orders) (events : List Event) :
    Serial holds backend.bucket (backend.objectKey key) (trip.run link backend key events) ∧
      Unconditional backend (trip.run link backend key events).orders := by
  induction events generalizing trip with
  | nil => exact h
  | cons event events ih => exact ih (serial_step keeps h event)

/-- With nothing under way, an upload that has not returned success has not reached the store. -/
theorem Serial.unreached {bucket : String} {trip : Itinerary σ}
    (h : Serial holds bucket key trip) (quiet : trip.flight.Quiet)
    (unsuccessful : trip.flight.upload.result? ≠ some (.ok ())) {shipment : Shipment}
    (member : shipment ∈ trip.flight.handled) : shipment.number ≠ trip.flight.number := by
  intro now
  have idle := h.coherent
  cases phase : trip.flight.upload.phase with
  | created => exact h.unbegun phase shipment member now
  | waiting =>
    simp only [Flight.Coherent, phase] at idle
    exact idle.1 (quiet.1 .primary)
  | hedged =>
    simp only [Flight.Coherent, phase] at idle
    exact idle .primary (quiet.1 .primary)
  | dropped => simp [Flight.Coherent, phase] at idle
  | finished outcome =>
    obtain ⟨result, adopted, fulfilled⟩ := h.decided outcome phase
    cases result with
    | ok =>
      refine unsuccessful ?_
      simp [Upload.result?, phase, Hedge.Phase.outcome?, adopted, Except.mapError]
    | error why =>
      obtain ⟨upload, found, same⟩ := h.ledger.owned shipment member
      rw [now, uploads_current h.counted] at found
      obtain rfl := Option.some.inj found
      have sendable := h.ledger.carried shipment member
      simp only [Fulfilled] at fulfilled
      rw [same, fulfilled] at sendable
      cases sendable

/-- Once nothing is under way any more, the store holds the object of the request that it has
handled last. That request is of the last upload that has returned success, or it is of the attempt
that an earlier upload has abandoned in a hedged race. -/
theorem last_upload_stays (keeps : link.Overwrites backend.bucket holds)
    {order : Bytes × UploadOptions} {orders : List (Bytes × UploadOptions)}
    (free : Unconditional backend (order :: orders)) (store : σ) (events : List Event)
    {trip : Itinerary σ}
    (ran : (start backend key order orders store).run link backend key events = trip)
    (quiet : trip.flight.Quiet) {number : Nat} {upload : Upload}
    (found : trip.uploads[number]? = some upload) (succeeded : upload.result? = some (.ok ()))
    (last : ∀ (later : Nat) (other : Upload), number < later →
      trip.uploads[later]? = some other → other.result? ≠ some (.ok ())) :
    ∃ final sender, trip.flight.handled.getLast? = some final ∧
      trip.uploads[final.number]? = some sender ∧ final.request = sender.request ∧
      holds trip.flight.store (backend.objectKey key) = some sender.request.object ∧
      (final.number = number ∨ final.number < number ∧ sender.Abandons final.attempt) := by
  subst ran
  have free_later : Unconditional backend (start backend key order orders store).orders :=
    fun other member => free other (by simp [show other ∈ orders from member])
  obtain ⟨serial, -⟩ := serial_run keeps ⟨serial_start free store, free_later⟩ events
  generalize (start backend key order orders store).run link backend key events = trip at *
  obtain ⟨shipment, member, own⟩ :
      ∃ shipment ∈ trip.flight.handled, shipment.number = number := by
    by_cases now : number = trip.flight.number
    · subst now
      rw [uploads_current serial.counted] at found
      obtain rfl := Option.some.inj found
      exact serial.handled succeeded
    · exact (serial.succeeded found now).2
  obtain ⟨final, ending⟩ : ∃ final, trip.flight.handled.getLast? = some final :=
    Option.isSome_iff_exists.mp (by simp [List.ne_nil_of_mem member])
  have final_member := List.mem_of_getLast? ending
  obtain ⟨sender, sent, same⟩ := serial.ledger.owned final final_member
  have kept := serial.ledger.kept final ending
  refine ⟨final, sender, ending, sent, same, same ▸ kept, ?_⟩
  rcases Nat.lt_trichotomy final.number number with before | equal | after
  · rcases serial.ledger.lead final ending shipment member with le | lost
    · omega
    · obtain ⟨other, there, abandoned⟩ := lost
      obtain rfl : other = sender := Option.some.inj (there.symm.trans sent)
      exact .inr ⟨before, abandoned⟩
  · exact .inl equal
  · -- Nothing of a later upload has been handled, as none of them has returned success.
    have unsuccessful := last final.number sender after sent
    by_cases now : final.number = trip.flight.number
    · rw [now, uploads_current serial.counted] at sent
      obtain rfl := Option.some.inj sent
      exact absurd now (serial.unreached quiet unsuccessful final_member)
    · exact absurd (serial.succeeded sent now).1 unsuccessful

end Run

/-- Two uploads to an empty shelf. The race of the first one is hedged and leaves its primary
behind; `between` happens then, and `after` when both have returned. -/
def twoUploads (between after : List Event) : Itinerary Shelf :=
  (start (Shelf.backend "log/" false) "checkpoint" ([1], {}) [([2], {})] {}).run
    (Shelf.link 1000 fun _ => ⟨0⟩) (Shelf.backend "log/" false) "checkpoint"
    ([.poll, .wait 75000000, .poll, .handle .hedge, .answer .hedge, .poll].map .within ++
      between ++ .next :: [.poll, .handle .primary, .answer .primary, .poll].map .within ++ after)

theorem last_upload_stays_on_shelf :
    ∃ final sender,
      (twoUploads [.within (.arrive 0)] []).flight.handled.getLast? = some final ∧
      (twoUploads [.within (.arrive 0)] []).uploads[final.number]? = some sender ∧
      final.request = sender.request ∧
      (twoUploads [.within (.arrive 0)] []).flight.store.find? "log/checkpoint" =
        some sender.request.object ∧
      (final.number = 1 ∨ final.number < 1 ∧ sender.Abandons final.attempt) := by
  have free : Unconditional (Shelf.backend "log/" false) [([1], {}), ([2], {})] := by
    intro order _
    simp [Shelf.backend]
  refine last_upload_stays (Shelf.overwrites 1000 _ _) free _ _ rfl
    ⟨fun attempt => by cases attempt <;> rfl, rfl⟩ rfl rfl ?_
  intro later other after there
  have bound := (List.getElem?_eq_some_iff.mp there).1
  have two : (twoUploads [.within (.arrive 0)] []).uploads.length = 2 := rfl
  exact absurd (two ▸ bound) (by omega)

/-- The request that was left behind arrives when the second upload has returned success, and the
object is that of the first upload from then on. -/
theorem last_upload_overtaken :
    (twoUploads [] [.within (.arrive 0)]).flight.Quiet ∧
      (twoUploads [] [.within (.arrive 0)]).flight.upload.result? = some (.ok ()) ∧
      (twoUploads [] [.within (.arrive 0)]).flight.upload.request.body = [2] ∧
      (twoUploads [] [.within (.arrive 0)]).flight.store.find? "log/checkpoint" =
        some ⟨[1], none⟩ :=
  ⟨⟨fun attempt => by cases attempt <;> rfl, rfl⟩, rfl, rfl, rfl⟩

end Itinerary

end HedgedStore
