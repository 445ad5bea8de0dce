import HedgedStore.Proofs.Backend.Objects
import HedgedStore.Proofs.Gzip.Truncation

/-! A compressed object whose body is cut off is never taken for a whole one, nor is a part of it
handed out. -/
namespace HedgedStore

namespace Link

variable {σ α : Type} {link : Link σ} {read : Answer → Verdict α} {request : Request}
  {exchange : Exchange} {a : α}

/-- An exchange that succeeds ends the sending, so the result is that of no other. -/
theorem send_of_mem {more : Nat} {state : σ}
    (member : exchange ∈ (link.send read request more state).1.exchanges)
    (success : exchange.verdict read = .success a) :
    (link.send read request more state).1.result = .ok a := by
  fun_induction Link.send link read request more state with
  | case1 state more only _ _ b done =>
    obtain rfl := List.mem_singleton.mp member
    cases done.symm.trans success
    rfl
  | case2 state more only _ _ why failed =>
    obtain rfl := List.mem_singleton.mp member
    cases failed.symm.trans success
  | case3 state only _ _ why failed =>
    obtain rfl := List.mem_singleton.mp member
    cases failed.symm.trans success
  | case4 state first _ _ why more failed course _ sent ih =>
    rcases List.mem_cons.mp member with rfl | later
    · cases failed.symm.trans success
    · rw [sent] at ih
      exact ih later

theorem settle_of_mem {attempts : Nat} {state last : σ} {course : Course α}
    (settled : link.settle attempts read request state = (course, last))
    (member : exchange ∈ course.exchanges) (success : exchange.verdict read = .success a) :
    course.result = .ok a := by
  unfold settle at settled
  split at settled
  · have same : (link.send read request (attempts - 1) state).1 = course := congrArg Prod.fst settled
    rw [← same] at member ⊢
    exact send_of_mem member success
  · obtain ⟨rfl, -⟩ := Prod.mk.inj settled
    cases member

end Link

namespace Session

open Gzip

/-- Why nothing comes of a body with a fault in it. One that broke off is not unpacked at all. -/
def faultOf (key : String) (complete : Bool) (why : MemberFault) : Failure :=
  if complete then .decode key why.message else .read key "the body broke off"

theorem fetched_of_fault {key : String} {object : Download} {why : MemberFault}
    (compressed : object.encoding = some encodingName) (fault : gunzip object.body = .error why) :
    (Backend.fetched key (.ok object)).1 = .error (faultOf key object.complete why) := by
  unfold Backend.fetched Backend.unpack faultOf
  cases whole : object.complete with
  | false => simp [whole]
  | true => simp [whole, compressed, fault]

/-- Wherever a gzip member is cut, what is left of it is found to end too early. A fetch that is
answered with that as a gzip body fails for that reason, or as the body broke off before its
announced end; no part of the data is returned. -/
theorem cut_members_refused (data : Bytes) :
    (∀ blank, Member blank data (gzip data)) ∧
      ∀ member start, Member (some 0) data member → start <+: member → start ≠ member →
        ∃ why, gunzip start = .error why ∧ why.isUnexpectedEnd = true ∧
        ∀ {σ : Type} (session : Session σ) (key : String) (course : Course Download) (store : σ)
          (exchange : Exchange) (answer : Answer),
          session.link.settle session.backend.maxAttempts Answer.download
            (session.backend.fetchRequest key) session.store = (course, store) →
          exchange ∈ course.exchanges → exchange.answer = some answer → answer.isSuccess = true →
          answer.header? "content-encoding" = some encodingName → answer.body = start →
          session.Ends (session.fetch key) (.error (faultOf key answer.complete why)) store
            course.takes := by
  refine ⟨fun blank => member_gzip blank data, fun member start whole begins proper => ?_⟩
  obtain ⟨why, fault, short⟩ := gunzip_of_cut whole begins proper
  refine ⟨why, fault, short, ?_⟩
  rintro σ session key course store exchange answer settled member answered success compressed rfl
  have found : exchange.verdict Answer.download = .success {
      encoding := answer.header? "content-encoding"
      length := (answer.header? "content-length").bind Answer.number?
      body := answer.body
      complete := answer.complete } := by
    simp [Exchange.verdict, answered, Answer.download, success]
  have ends := call_ends _ _ (Backend.fetched key) settled
  rw [Link.settle_of_mem settled member found, fetched_of_fault compressed fault] at ends
  exact ends

/-- Every answer brings an object that lacks the end of its compressed form. -/
def cuttingLink : Link Unit := ⟨fun _ _ => (⟨some {
  status := 200
  headers := [("Content-Encoding", "gzip")]
  body := plainHeader ++ deflate [7] }, ⟨0⟩⟩, ())⟩

theorem missing_trailer_refused : ∃ session next, ∃ why : MemberFault,
    Session.create { region := "here", bucket := "objects" } (Shelf.backend "log/" false)
      cuttingLink () ⟨0⟩ = .ok session ∧ why.isUnexpectedEnd = true ∧
    session.fetch "k" = .ok (.error (.decode "k" why.message), next) := by
  have room : StoreMetrics.HasRoom ⟨0⟩ := by
    unfold StoreMetrics.HasRoom
    decide
  obtain ⟨session, opened⟩ := create_returns room { region := "here", bucket := "objects" }
    (Shelf.backend "log/" false) cuttingLink ()
  obtain ⟨at_backend, over_link, at_store, started, regular⟩ := create_spec opened
  have proper : plainHeader ++ deflate [7] ≠ gzip [7] := by
    intro same
    have lengths := congrArg List.length same
    simp [gzip, trailer, littleEndian_length] at lengths
  obtain ⟨why, -, short, refused⟩ := (cut_members_refused [7]).2 (gzip [7])
    (plainHeader ++ deflate [7]) (member_gzip (some 0) [7]) ⟨trailer [7], rfl⟩ proper
  have ends := refused session "k" _ () (cuttingLink.exchange () default).1 _
    (by rw [at_backend, over_link]) (List.mem_singleton_self _) rfl rfl (by decide +kernel) rfl
  obtain ⟨next, fetched, -⟩ := ends.returns (regular room) (by rw [started]; exact room)
  exact ⟨session, next, why, opened, short, fetched⟩

end Session

end HedgedStore
