import HedgedStore.Backend.Upload
import HedgedStore.Store.Link
import Mathlib.Logic.Function.Basic
import Mathlib.Tactic.Ring

/-! What a store promises that keeps whole objects under their full keys. The promises speak about
single exchanges and leave open how long these take, how the store keeps its objects and in which
order it lists them. The theorems below say what they make of a request that is settled. -/
namespace HedgedStore

structure StoredObject where
  body : Bytes
  encoding : Option String
deriving DecidableEq, Repr

/-- What a request to write asks the store to keep. -/
def Request.object (request : Request) : StoredObject :=
  ⟨request.body, request.header? "content-encoding"⟩

/-- The request is of this kind and about this object, or about the whole bucket. -/
def Request.Concerns (request : Request) (method : Method) (bucket : String) (key : Option String) :
    Prop :=
  request.method = method ∧ request.bucket = bucket ∧ request.key = key

/-- The request asks for one object to be written, copying aside. -/
def Request.Writes (request : Request) (bucket key : String) : Prop :=
  request.Concerns .put bucket (some key) ∧ request.header? "x-amz-copy-source" = none

/-- The request is about one object, copying aside. -/
def Request.Touches (request : Request) (bucket key : String) : Prop :=
  request.bucket = bucket ∧ request.key = some key ∧ request.header? "x-amz-copy-source" = none

/-- The request asks which objects have names that begin in a certain way. -/
def Request.Lists (request : Request) (bucket start : String) : Prop :=
  request.Concerns .get bucket none ∧ request.query.lookup "prefix" = some start

/-- The request is about an object whose name begins in a certain way, or about some of these. -/
def Request.Within (request : Request) (bucket start : String) : Prop :=
  (∃ key, request.Touches bucket key ∧ start.toList <+: key.toList) ∨
    ∃ more, request.Lists bucket more ∧ start.toList <+: more.toList

/-- The exchange brought an answer of success, and the answer came whole. -/
def Exchange.Succeeds (exchange : Exchange) (answer : Answer) : Prop :=
  exchange.answer = some answer ∧ answer.isSuccess = true ∧ answer.complete = true

/-- The exchange brought an answer with this status, which no further attempt would better. -/
def Exchange.Fails (exchange : Exchange) (status : Nat) : Prop :=
  ∃ answer, exchange.answer = some answer ∧ answer.status = status ∧
    answer.isSuccess = false ∧ answer.isPassing = false

/-- The names of the objects whose names begin in a certain way, each once and in order. -/
structure Catalogue (objects : String → Option StoredObject) (before : String → String → Prop)
    (start : String) (names : List String) : Prop where
  nodup : names.Nodup
  ordered : names.Pairwise before
  mem_iff : ∀ name, name ∈ names ↔ start.toList <+: name.toList ∧ objects name ≠ none

/-- The listing has the first page of the names, and says so if there are more. -/
def Listing.Shows (listing : Listing) (page : Nat) (names : List String) : Prop :=
  listing.keys = (names.take page).map some ∧
    (listing.truncated = some true ↔ page < names.length)

namespace Link

variable {σ : Type}

/-- Writes without a condition are carried out at once. -/
def Overwrites (link : Link σ) (bucket : String) (holds : σ → String → Option StoredObject) : Prop :=
  ∀ state request key, request.Writes bucket key → request.header? "if-match" = none →
    (∃ answer, (link.exchange state request).1.Succeeds answer) ∧
      holds (link.exchange state request).2 =
        Function.update (holds state) key (some request.object)

/-- A write that carries an empty `If-Match` creates an object, and is turned down where there is
one. -/
structure CreatesOnly (link : Link σ) (bucket : String)
    (holds : σ → String → Option StoredObject) : Prop where
  creates : ∀ state request key, request.Writes bucket key →
    request.header? "if-match" = some "" → holds state key = none →
    (∃ answer, (link.exchange state request).1.Succeeds answer) ∧
      holds (link.exchange state request).2 =
        Function.update (holds state) key (some request.object)
  refuses : ∀ state request key, request.Writes bucket key →
    request.header? "if-match" = some "" → holds state key ≠ none →
    (link.exchange state request).1.Fails 412 ∧
      holds (link.exchange state request).2 = holds state

/-- All objects can be written, read, deleted and listed, a page of keys at a time and in an order
of the store's own. -/
structure KeepsObjects (link : Link σ) (bucket : String)
    (holds : σ → String → Option StoredObject) (page : Nat) (before : String → String → Prop) :
    Prop where
  overwrites : link.Overwrites bucket holds
  reads : ∀ state request key object, request.Concerns .get bucket (some key) →
    holds state key = some object →
    (∃ answer, (link.exchange state request).1.Succeeds answer ∧ answer.body = object.body ∧
      answer.header? "content-encoding" = object.encoding) ∧
      holds (link.exchange state request).2 = holds state
  misses : ∀ state request key, request.Concerns .get bucket (some key) →
    holds state key = none →
    (∃ answer, (link.exchange state request).1.answer = some answer ∧ answer.status = 404) ∧
      holds (link.exchange state request).2 = holds state
  deletes : ∀ state request key, request.Concerns .delete bucket (some key) →
    (∃ answer, (link.exchange state request).1.Succeeds answer) ∧
      holds (link.exchange state request).2 = Function.update (holds state) key none
  lists : ∀ state request start, request.Concerns .get bucket none →
    request.query.lookup "prefix" = some start →
    (∃ answer listing names, (link.exchange state request).1.Succeeds answer ∧
      answer.listing? = some listing ∧ listing.Shows page names ∧
      Catalogue (holds state) before start names) ∧
      holds (link.exchange state request).2 = holds state

/-- No object matters to another: what is answered about an object, and what becomes of it, depends
on that object, and which page of the objects is listed depends on the objects to be listed. -/
structure KeepsApart (link : Link σ) (bucket : String)
    (holds : σ → String → Option StoredObject) : Prop where
  answers : ∀ request key, request.Touches bucket key → ∀ state other,
    holds state key = holds other key →
    (link.exchange state request).1.answer = (link.exchange other request).1.answer ∧
      holds (link.exchange state request).2 key = holds (link.exchange other request).2 key
  spares : ∀ request key, request.Touches bucket key → ∀ state spared, spared ≠ key →
    holds (link.exchange state request).2 spared = holds state spared
  lists : ∀ request start, request.Lists bucket start → ∀ state other,
    (∀ key, start.toList <+: key.toList → holds state key = holds other key) →
    (link.exchange state request).1.answer = (link.exchange other request).1.answer
  keeps : ∀ request start, request.Lists bucket start → ∀ state,
    holds (link.exchange state request).2 = holds state

section Apart

variable {link : Link σ} {bucket start : String} {holds : σ → String → Option StoredObject}
  {request : Request}

/-- What begins otherwise is left alone. -/
theorem KeepsApart.spares_within (apart : link.KeepsApart bucket holds)
    (within : request.Within bucket start) (state : σ) {key : String}
    (foreign : ¬ start.toList <+: key.toList) :
    holds (link.exchange state request).2 key = holds state key := by
  rcases within with ⟨own, touches, begins⟩ | ⟨more, lists, -⟩
  · exact apart.spares request own touches state key fun same => foreign (same ▸ begins)
  · rw [apart.keeps request more lists state]

/-- What begins otherwise does not matter. -/
theorem KeepsApart.answers_within (apart : link.KeepsApart bucket holds)
    (within : request.Within bucket start) {state other : σ}
    (same : ∀ key, start.toList <+: key.toList → holds state key = holds other key) :
    (link.exchange state request).1.answer = (link.exchange other request).1.answer ∧
      ∀ key, start.toList <+: key.toList →
        holds (link.exchange state request).2 key = holds (link.exchange other request).2 key := by
  rcases within with ⟨own, touches, begins⟩ | ⟨more, lists, begins⟩
  · obtain ⟨answers, after⟩ := apart.answers request own touches state other (same own begins)
    refine ⟨answers, fun key within => ?_⟩
    by_cases here : key = own
    · rw [here, after]
    · rw [apart.spares request own touches state key here,
        apart.spares request own touches other key here, same key within]
  · constructor
    · refine apart.lists request more lists state other fun key within => ?_
      exact same key (begins.trans within)
    · intro key within
      rw [apart.keeps request more lists, apart.keeps request more lists, same key within]

end Apart

def Prompt (link : Link σ) (longest : Nat) : Prop :=
  ∀ state request, (link.exchange state request).1.takes.nanos ≤ longest

/-! Settling a request takes one exchange where the answer is final. -/

section Settle

variable {α : Type} {link : Link σ} {read : Answer → Verdict α} {request : Request} {state : σ}

theorem send_of_success {a : α} (h : (link.exchange state request).1.verdict read = .success a)
    (more : Nat) :
    link.send read request more state =
      (⟨.ok a, [(link.exchange state request).1]⟩, (link.exchange state request).2) := by
  cases more <;> simp only [send, h]

theorem send_of_failure {why : Refusal}
    (h : (link.exchange state request).1.verdict read = .failure why) (more : Nat) :
    link.send read request more state =
      (⟨.error why, [(link.exchange state request).1]⟩, (link.exchange state request).2) := by
  cases more <;> simp only [send, h]

theorem send_of_last_retry {why : Refusal}
    (h : (link.exchange state request).1.verdict read = .retry why) :
    link.send read request 0 state =
      (⟨.error why, [(link.exchange state request).1]⟩, (link.exchange state request).2) := by
  rw [send]
  simp only [h]

theorem send_of_retry {why : Refusal}
    (h : (link.exchange state request).1.verdict read = .retry why) (more : Nat) :
    link.send read request (more + 1) state =
      (⟨(link.send read request more (link.exchange state request).2).1.result,
        (link.exchange state request).1 ::
          (link.send read request more (link.exchange state request).2).1.exchanges⟩,
        (link.send read request more (link.exchange state request).2).2) := by
  rw [send]
  simp only [h]

theorem settle_of_unsendable (unsendable : request.isSendable = false) (attempts : Nat) :
    link.settle attempts read request state = (⟨.error Link.unsendable, []⟩, state) := by
  simp [settle, unsendable]

theorem settle_of_success (sendable : request.isSendable = true) {a : α}
    (h : (link.exchange state request).1.verdict read = .success a) (attempts : Nat) :
    link.settle attempts read request state =
      (⟨.ok a, [(link.exchange state request).1]⟩, (link.exchange state request).2) := by
  rw [settle, if_pos sendable, send_of_success h]

theorem settle_of_failure (sendable : request.isSendable = true) {why : Refusal}
    (h : (link.exchange state request).1.verdict read = .failure why) (attempts : Nat) :
    link.settle attempts read request state =
      (⟨.error why, [(link.exchange state request).1]⟩, (link.exchange state request).2) := by
  rw [settle, if_pos sendable, send_of_failure h]

end Settle

end Link

namespace Exchange

variable {exchange : Exchange}

theorem Succeeds.verdict_accepted {answer : Answer} (h : exchange.Succeeds answer) :
    exchange.verdict Answer.accepted = .success () := by
  obtain ⟨answered, success, complete⟩ := h
  simp [verdict, answered, Answer.accepted, Answer.verdict, success, complete]

theorem Fails.refused {status : Nat} (h : exchange.Fails status) :
    ∃ answer why, exchange.answer = some answer ∧ answer.isSuccess = false ∧
      why.status = some status ∧
      ∀ {α : Type}, (answer.refused : Verdict α) = .failure why := by
  obtain ⟨answer, answered, rfl, failed, final⟩ := h
  exact ⟨answer, answer.refusal, answered, failed, rfl, by simp [Answer.refused, final]⟩

theorem Fails.verdict_accepted {status : Nat} (h : exchange.Fails status) :
    ∃ why, exchange.verdict Answer.accepted = .failure why ∧ why.status = some status := by
  obtain ⟨answer, why, answered, failed, named, refused⟩ := h.refused
  exact ⟨why, by simp [verdict, answered, Answer.accepted, Answer.verdict, failed, refused], named⟩

theorem Succeeds.verdict_download {answer : Answer} (h : exchange.Succeeds answer) :
    exchange.verdict Answer.download = .success {
      encoding := answer.header? "content-encoding"
      length := (answer.header? "content-length").bind Answer.number?
      body := answer.body
      complete := true } := by
  obtain ⟨answered, success, complete⟩ := h
  simp [verdict, answered, Answer.download, success, complete]

theorem Succeeds.verdict_listed {answer : Answer} (h : exchange.Succeeds answer)
    {listing : Listing} (read : answer.listing? = some listing) :
    exchange.verdict Answer.listed = .success listing := by
  obtain ⟨answered, success, complete⟩ := h
  simp [verdict, answered, Answer.listed, Answer.verdict, success, complete, read]

theorem verdict_download_of_failure {answer : Answer} (answered : exchange.answer = some answer)
    (failed : answer.isSuccess = false) :
    ∃ why, why.status = some answer.status ∧
      (exchange.verdict Answer.download = .retry why ∨
        exchange.verdict Answer.download = .failure why) := by
  refine ⟨answer.refusal, rfl, ?_⟩
  cases passing : answer.isPassing <;>
    simp [verdict, answered, Answer.download, failed, Answer.refused, passing]

end Exchange

/-! What becomes of the requests of uploads. -/

namespace Link

variable {σ : Type} {link : Link σ} {bucket : String} {holds : σ → String → Option StoredObject}

theorem Overwrites.settle (keeps : link.Overwrites bucket holds) {request : Request} {key : String}
    (writes : request.Writes bucket key) (free : request.header? "if-match" = none)
    (sendable : request.isSendable = true) (attempts : Nat) (state : σ) :
    (link.settle attempts Answer.accepted request state).1.result = .ok () ∧
      holds (link.settle attempts Answer.accepted request state).2 =
        Function.update (holds state) key (some request.object) := by
  obtain ⟨⟨answer, succeeds⟩, kept⟩ := keeps state request key writes free
  rw [settle_of_success sendable succeeds.verdict_accepted]
  exact ⟨rfl, kept⟩

theorem CreatesOnly.settle_create (keeps : link.CreatesOnly bucket holds) {request : Request}
    {key : String} (writes : request.Writes bucket key) (conditional : request.header? "if-match" = some "")
    (sendable : request.isSendable = true) (attempts : Nat) {state : σ}
    (absent : holds state key = none) :
    (link.settle attempts Answer.accepted request state).1.result = .ok () ∧
      holds (link.settle attempts Answer.accepted request state).2 =
        Function.update (holds state) key (some request.object) := by
  obtain ⟨⟨answer, succeeds⟩, kept⟩ := keeps.creates state request key writes conditional absent
  rw [settle_of_success sendable succeeds.verdict_accepted]
  exact ⟨rfl, kept⟩

theorem CreatesOnly.settle_refused (keeps : link.CreatesOnly bucket holds) {request : Request}
    {key : String} (writes : request.Writes bucket key) (conditional : request.header? "if-match" = some "")
    (sendable : request.isSendable = true) (attempts : Nat) {state : σ}
    (present : holds state key ≠ none) :
    (∃ why, (link.settle attempts Answer.accepted request state).1.result = .error why ∧
      why.status = some 412) ∧
      holds (link.settle attempts Answer.accepted request state).2 = holds state := by
  obtain ⟨fails, kept⟩ := keeps.refuses state request key writes conditional present
  obtain ⟨why, verdict, named⟩ := fails.verdict_accepted
  rw [settle_of_failure sendable verdict]
  exact ⟨⟨why, rfl, named⟩, kept⟩

/-! What becomes of the other requests. -/

section Objects

variable {page : Nat} {before : String → String → Prop} {request : Request} {key : String}

theorem KeepsObjects.settle_read (keeps : link.KeepsObjects bucket holds page before)
    (concerns : request.Concerns .get bucket (some key)) (sendable : request.isSendable = true)
    (attempts : Nat) {state : σ} {object : StoredObject} (present : holds state key = some object) :
    (∃ length, (link.settle attempts Answer.download request state).1.result =
      .ok ⟨object.encoding, length, object.body, true⟩) ∧
      holds (link.settle attempts Answer.download request state).2 = holds state := by
  obtain ⟨⟨answer, succeeds, body, encoding⟩, kept⟩ := keeps.reads state request key object concerns
    present
  rw [settle_of_success sendable succeeds.verdict_download, body, encoding]
  exact ⟨⟨_, rfl⟩, kept⟩

theorem KeepsObjects.refuses (keeps : link.KeepsObjects bucket holds page before)
    (concerns : request.Concerns .get bucket (some key)) {state : σ}
    (absent : holds state key = none) :
    (∃ why, why.status = some 404 ∧
      ((link.exchange state request).1.verdict Answer.download = .retry why ∨
        (link.exchange state request).1.verdict Answer.download = .failure why)) ∧
      holds (link.exchange state request).2 = holds state := by
  obtain ⟨⟨answer, answered, status⟩, kept⟩ := keeps.misses state request key concerns absent
  have failed : answer.isSuccess = false := by simp [Answer.isSuccess, status]
  obtain ⟨why, named, verdict⟩ := Exchange.verdict_download_of_failure answered failed
  exact ⟨⟨why, named.trans (congrArg some status), verdict⟩, kept⟩

/-- A request for an object that there is not ends with that status, whether the store's word is
taken at once or asked for again. -/
theorem KeepsObjects.settle_miss (keeps : link.KeepsObjects bucket holds page before)
    (concerns : request.Concerns .get bucket (some key)) (sendable : request.isSendable = true)
    (attempts : Nat) {state : σ} (absent : holds state key = none) :
    (∃ why, (link.settle attempts Answer.download request state).1.result = .error why ∧
      why.status = some 404) ∧
      holds (link.settle attempts Answer.download request state).2 = holds state := by
  rw [settle, if_pos sendable]
  induction attempts - 1 generalizing state with
  | zero =>
    obtain ⟨⟨why, named, retry | failure⟩, kept⟩ := keeps.refuses concerns absent
    · rw [send_of_last_retry retry]
      exact ⟨⟨why, rfl, named⟩, kept⟩
    · rw [send_of_failure failure]
      exact ⟨⟨why, rfl, named⟩, kept⟩
  | succ more ih =>
    obtain ⟨⟨why, named, retry | failure⟩, kept⟩ := keeps.refuses concerns absent
    · have again : holds (link.exchange state request).2 key = none := by rw [kept, absent]
      obtain ⟨refused, same⟩ := ih again
      rw [send_of_retry retry]
      exact ⟨refused, same.trans kept⟩
    · rw [send_of_failure failure]
      exact ⟨⟨why, rfl, named⟩, kept⟩

theorem KeepsObjects.settle_delete (keeps : link.KeepsObjects bucket holds page before)
    (concerns : request.Concerns .delete bucket (some key)) (sendable : request.isSendable = true)
    (attempts : Nat) (state : σ) :
    (link.settle attempts Answer.accepted request state).1.result = .ok () ∧
      holds (link.settle attempts Answer.accepted request state).2 =
        Function.update (holds state) key none := by
  obtain ⟨⟨answer, succeeds⟩, kept⟩ := keeps.deletes state request key concerns
  rw [settle_of_success sendable succeeds.verdict_accepted]
  exact ⟨rfl, kept⟩

theorem KeepsObjects.settle_list (keeps : link.KeepsObjects bucket holds page before)
    (concerns : request.Concerns .get bucket none) (sendable : request.isSendable = true)
    {start : String} (asked : request.query.lookup "prefix" = some start) (attempts : Nat)
    (state : σ) :
    (∃ listing names, (link.settle attempts Answer.listed request state).1.result = .ok listing ∧
      listing.Shows page names ∧ Catalogue (holds state) before start names) ∧
      holds (link.settle attempts Answer.listed request state).2 = holds state := by
  obtain ⟨⟨answer, listing, names, succeeds, read, shows, catalogue⟩, kept⟩ :=
    keeps.lists state request start concerns asked
  rw [settle_of_success sendable (succeeds.verdict_listed read)]
  exact ⟨⟨listing, names, rfl, shows, catalogue⟩, kept⟩

end Objects

/-! How long it takes to settle a request. -/

theorem takes_cons {α : Type} (result : Except Refusal α) (exchange : Exchange)
    (rest : List Exchange) :
    (⟨result, exchange :: rest⟩ : Course α).takes =
      exchange.takes.nanos + (⟨result, rest⟩ : Course α).takes := by
  have start : ∀ (exchanges : List Exchange) (total : Nat),
      exchanges.foldl (fun total exchange => total + exchange.takes.nanos) total =
        total + exchanges.foldl (fun total exchange => total + exchange.takes.nanos) 0 := by
    intro exchanges
    induction exchanges with
    | nil => simp
    | cons exchange exchanges ih =>
      intro total
      rw [List.foldl_cons, List.foldl_cons, ih, ih (0 + exchange.takes.nanos)]
      omega
  simp only [Course.takes, List.foldl_cons]
  rw [start]
  omega

theorem Prompt.send_takes {longest : Nat} (prompt : link.Prompt longest) {α : Type}
    (read : Answer → Verdict α) (request : Request) (more : Nat) (state : σ) :
    (link.send read request more state).1.takes ≤ (more + 1) * longest := by
  have single : ∀ result state (more : Nat),
      (⟨result, [(link.exchange state request).1]⟩ : Course α).takes ≤ (more + 1) * longest := by
    intro result state more
    have once := prompt state request
    have least : longest ≤ (more + 1) * longest := Nat.le_mul_of_pos_left longest (Nat.succ_pos more)
    rw [takes_cons]
    exact once.trans least
  induction more generalizing state with
  | zero =>
    cases h : (link.exchange state request).1.verdict read with
    | success a => rw [send_of_success h]; exact single _ _ 0
    | retry why => rw [send_of_last_retry h]; exact single _ _ 0
    | failure why => rw [send_of_failure h]; exact single _ _ 0
  | succ more ih =>
    cases h : (link.exchange state request).1.verdict read with
    | success a => rw [send_of_success h]; exact single _ _ (more + 1)
    | failure why => rw [send_of_failure h]; exact single _ _ (more + 1)
    | retry why =>
      have once := prompt state request
      have later := ih (link.exchange state request).2
      have both : (more + 1 + 1) * longest = longest + (more + 1) * longest := by ring
      rw [send_of_retry h, takes_cons, both]
      exact Nat.add_le_add once later

theorem Prompt.settle_takes {longest : Nat} (prompt : link.Prompt longest) {α : Type}
    (attempts : Nat) (read : Answer → Verdict α) (request : Request) (state : σ) :
    (link.settle attempts read request state).1.takes ≤ max attempts 1 * longest := by
  rw [settle]
  split
  · have sent := prompt.send_takes read request (attempts - 1) state
    have count : attempts - 1 + 1 = max attempts 1 := by omega
    rwa [count] at sent
  · exact Nat.zero_le _

end Link

/-! The request of an upload. -/

namespace Backend

variable (backend : Backend) (key : String) (body : Bytes) (options : UploadOptions)

theorem putRequest_writes :
    (backend.putRequest key body options).Writes backend.bucket (backend.objectKey key) := by
  refine ⟨⟨rfl, rfl, rfl⟩, ?_⟩
  rcases options with ⟨contentType, _ | _, _ | _⟩ <;> cases h : backend.conditionalWrites <;>
    simp [putRequest, Request.header?, h, UploadOptions.cacheControl, List.lookup_cons]

/-- The condition is sent for immutable objects where the backend makes use of it. -/
theorem putRequest_condition :
    (backend.putRequest key body options).header? "if-match" =
      if options.immutable && backend.conditionalWrites then some "" else none := by
  rcases options with ⟨contentType, _ | _, _ | _⟩ <;> cases h : backend.conditionalWrites <;>
    simp [putRequest, Request.header?, h, UploadOptions.cacheControl, List.lookup_cons]

theorem putRequest_object :
    (backend.putRequest key body options).object =
      ⟨body, if options.compress then some Gzip.encodingName else none⟩ := by
  rcases options with ⟨contentType, _ | _, _ | _⟩ <;> cases h : backend.conditionalWrites <;>
    simp [putRequest, Request.object, Request.header?, h, UploadOptions.cacheControl,
      List.lookup_cons]

end Backend

end HedgedStore
