import HedgedStore.Proofs.Backend.Session
import HedgedStore.Proofs.Store.Escapes
import HedgedStore.Proofs.Store.Record
import HedgedStore.Proofs.Store.Shelf

/-! Which objects the requests of a backend name to the store. A request's own key travels in its
path, where it is encoded; the source of a copy travels in a header, as it is. A store that reads
escapes in that header finds another source wherever the key holds one. -/
namespace HedgedStore

namespace Request

/-- The request is about an object, and its path can be read as nothing else. -/
structure Addresses (request : Request) (bucket key : String) : Prop where
  located : request.bucket = bucket
  named : request.key = some key
  shown : ∃ written, request.path = "/" ++ bucket ++ "/" ++ written ∧
    percentDecode written.toList = key.toUTF8.data.toList

/-- Where the source of a copy is told, a store that reads escapes finds the object of this name. -/
def NamesSource (request : Request) (name : String) : Prop :=
  (request.header? "x-amz-copy-source").map (fun value => percentDecode value.toList) =
    some name.toUTF8.data.toList

theorem addresses {request : Request} {key : String} (named : request.key = some key) :
    request.Addresses request.bucket key where
  located := rfl
  named := named
  shown := ⟨percentEncode (· == 0x2F) key, by simp [path, named],
    percentDecode_percentEncode key⟩

end Request

namespace Backend

/-- The name of an object of this backend, its bucket included. -/
def objectName (backend : Backend) (key : String) : String :=
  backend.bucket ++ "/" ++ (backend.keyPrefix ++ key)

theorem copyRequest_namesSource {backend : Backend} {source target name : String} :
    (backend.copyRequest source target).NamesSource name ↔
      percentDecode (backend.objectName source).toList = name.toUTF8.data.toList := by
  simp [copyRequest, Request.NamesSource, Request.header?, objectName, objectKey]

end Backend

namespace Session

variable {σ α β : Type}

/-- The session over a link that writes down what reaches the store. -/
def recording (session : Session σ) : Session (σ × List (Request × Exchange)) :=
  { session with link := session.link.recorded, store := (session.store, []) }

/-- A call sends its own request and no other, and each time that it does is written down. -/
theorem recording_ends (session : Session σ) (request : Request) (read : Answer → Verdict β)
    (conclude : Except Refusal β → Except Failure α × List Effect) {course : Course β} {store : σ}
    (settled : session.link.settle session.backend.maxAttempts read request session.store =
      (course, store)) :
    session.recording.Ends (session.recording.call request read conclude) (conclude course.result).1
      (store, course.exchanges.map (request, ·)) course.takes := by
  have recorded :=
    session.link.recorded_settle read request session.backend.maxAttempts session.store []
  rw [settled, List.nil_append] at recorded
  exact call_ends request read conclude recorded

/-- What is written down is the request of the call, and if that can be sent it is. -/
theorem recording_sends (session : Session σ) (request : Request) (read : Answer → Verdict β)
    (conclude : Except Refusal β → Except Failure α × List Effect) :
    ∃ result store record takes,
      session.recording.Ends (session.recording.call request read conclude) result (store, record)
        takes ∧
      (request.isSendable = true → record ≠ []) ∧ ∀ sent ∈ record, sent.1 = request := by
  refine ⟨_, _, _, _, session.recording_ends request read conclude rfl, fun sendable => ?_,
    fun sent member => ?_⟩
  · have ⟨exchange, carried, _⟩ :=
      session.link.settle_brings read request sendable session.backend.maxAttempts session.store
    exact List.ne_nil_of_mem (List.mem_map_of_mem carried)
  · obtain ⟨exchange, -, rfl⟩ := List.mem_map.mp member
    rfl

/-- A copy that reaches the store names its destination as a fetch of it would name it. As its
source it names the object that a fetch of the source would read just where no escape stands in the
name of that. -/
theorem copies_name_objects (session : Session σ) (source target : String) :
    (∃ result store record takes,
      session.recording.Ends (session.recording.copy source target) result (store, record) takes ∧
      ((session.backend.copyRequest source target).isSendable = true → record ≠ []) ∧
      ∀ sent ∈ record,
        sent.1.Addresses session.backend.bucket (session.backend.keyPrefix ++ target) ∧
        (sent.1.NamesSource (session.backend.objectName source) ↔
          ¬ HasEscape (session.backend.objectName source).toList)) ∧
    ∀ key, ∃ result store record takes,
      session.recording.Ends (session.recording.fetch key) result (store, record) takes ∧
      ((session.backend.fetchRequest key).isSendable = true → record ≠ []) ∧
      ∀ sent ∈ record,
        sent.1.Addresses session.backend.bucket (session.backend.keyPrefix ++ key) := by
  constructor
  · obtain ⟨result, store, record, takes, ends, reaches, own⟩ := session.recording_sends
      (session.backend.copyRequest source target) Answer.copied (Backend.copied source target)
    refine ⟨result, store, record, takes, ends, reaches, fun sent member => ?_⟩
    rw [own sent member, Backend.copyRequest_namesSource, bytes_eq]
    exact ⟨Request.addresses rfl, percentDecode_eq_iff⟩
  · intro key
    obtain ⟨result, store, record, takes, ends, reaches, own⟩ := session.recording_sends
      (session.backend.fetchRequest key) Answer.download (Backend.fetched key)
    refine ⟨result, store, record, takes, ends, reaches, fun sent member => ?_⟩
    rw [own sent member]
    exact Request.addresses rfl

/-- Every request is answered with success. -/
def willingLink : Link Unit := ⟨fun _ _ => (⟨some { status := 200 }, ⟨0⟩⟩, ())⟩

theorem escaped_source_names_another : ∃ session next,
    Session.create { region := "here", bucket := "objects" } (Shelf.backend "log/" false)
      willingLink () ⟨0⟩ = .ok session ∧
    session.recording.copy "a%41" "t" = .ok (.ok (), next) ∧ ∃ sent ∈ next.store.2,
      sent.1.NamesSource "objects/log/aA" ∧ ¬ sent.1.NamesSource "objects/log/a%41" := by
  have room : StoreMetrics.HasRoom ⟨0⟩ := by
    unfold StoreMetrics.HasRoom
    decide
  obtain ⟨session, opened⟩ := create_returns room { region := "here", bucket := "objects" }
    (Shelf.backend "log/" false) willingLink ()
  obtain ⟨at_backend, over_link, -, started, regular⟩ := create_spec opened
  have settled : session.link.settle session.backend.maxAttempts Answer.copied
      (session.backend.copyRequest "a%41" "t") session.store =
        (⟨.ok (), [⟨some { status := 200 }, ⟨0⟩⟩]⟩, ()) := by
    rw [at_backend, over_link]
    rfl
  have ends := session.recording_ends _ _ (Backend.copied "a%41" "t") settled
  obtain ⟨next, copied, -⟩ := ends.returns (regular room) (by
    rw [show session.recording.now = _ from started]
    exact room)
  have kept := (ends.spec _ _ copied).2.store
  refine ⟨session, next, opened, copied, _, by rw [kept]; exact List.mem_singleton_self _, ?_⟩
  rw [Backend.copyRequest_namesSource, Backend.copyRequest_namesSource, at_backend]
  decide

end Session

end HedgedStore
