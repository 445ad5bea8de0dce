import HedgedStore.Proofs.Store.Contract

/-! A link that writes down what passes over it. A request that is sent again is sent as it was,
and what comes of it is the word of its last exchange. -/
namespace HedgedStore

namespace Exchange

variable {α : Type} {exchange : Exchange}

/-- The exchange brought this result. -/
def Brings (exchange : Exchange) (read : Answer → Verdict α) : Except Refusal α → Prop
  | .ok a => exchange.verdict read = .success a
  | .error why => exchange.verdict read = .retry why ∨ exchange.verdict read = .failure why

theorem Brings.succeeds {a : Unit} (brings : exchange.Brings Answer.accepted (.ok a)) :
    ∃ answer, exchange.Succeeds answer := by
  obtain ⟨answer, takes⟩ := exchange
  cases answer with
  | none => cases brings
  | some answer =>
    simp only [Brings, verdict, Answer.accepted, Answer.verdict] at brings
    split at brings
    · rw [Answer.refused] at brings
      split at brings <;> cases brings
    · rename_i success
      split at brings
      · cases brings
      · rename_i complete
        exact ⟨answer, rfl, by simpa using success, by simpa using complete⟩

end Exchange

namespace Link

variable {σ α : Type} (link : Link σ) (read : Answer → Verdict α) (request : Request)

/-- The link, with a record of each request and what came of it. -/
def recorded : Link (σ × List (Request × Exchange)) :=
  ⟨fun (store, record) request =>
    let (exchange, store) := link.exchange store request
    (exchange, store, record ++ [(request, exchange)])⟩

/-- A store that is written about keeps its promises. -/
theorem KeepsObjects.recorded {link : Link σ} {bucket : String}
    {holds : σ → String → Option StoredObject} {page : Nat} {before : String → String → Prop}
    (keeps : link.KeepsObjects bucket holds page before) :
    link.recorded.KeepsObjects bucket (fun state => holds state.1) page before where
  overwrites := fun state => keeps.overwrites state.1
  reads := fun state => keeps.reads state.1
  misses := fun state => keeps.misses state.1
  deletes := fun state => keeps.deletes state.1
  lists := fun state => keeps.lists state.1

theorem Prompt.recorded {link : Link σ} {longest : Nat} (prompt : link.Prompt longest) :
    link.recorded.Prompt longest := fun state => prompt state.1

/-- The exchanges of a request are written down, each with the request, and nothing else is. -/
theorem recorded_send (more : Nat) (store : σ) (record : List (Request × Exchange)) :
    link.recorded.send read request more (store, record) =
      ((link.send read request more store).1, (link.send read request more store).2,
        record ++ (link.send read request more store).1.exchanges.map (request, ·)) := by
  induction more generalizing store record with
  | zero =>
    cases h : (link.exchange store request).1.verdict read <;>
      simp only [send, recorded, h, List.map_cons, List.map_nil]
  | succ more ih =>
    cases h : (link.exchange store request).1.verdict read with
    | success a => simp only [send, recorded, h, List.map_cons, List.map_nil]
    | failure why => simp only [send, recorded, h, List.map_cons, List.map_nil]
    | retry why =>
      have exchanged : link.recorded.exchange (store, record) request =
          ((link.exchange store request).1, (link.exchange store request).2,
            record ++ [(request, (link.exchange store request).1)]) := rfl
      have retried : (link.recorded.exchange (store, record) request).1.verdict read =
          .retry why := h
      rw [send_of_retry h, send_of_retry retried, exchanged, ih, List.append_assoc]
      rfl

/-- One of the exchanges of a request brings its result. -/
theorem send_brings (more : Nat) (store : σ) :
    ∃ exchange ∈ (link.send read request more store).1.exchanges,
      exchange.Brings read (link.send read request more store).1.result := by
  induction more generalizing store with
  | zero =>
    cases h : (link.exchange store request).1.verdict read with
    | success a => rw [send_of_success h]; exact ⟨_, List.mem_singleton_self _, h⟩
    | retry why => rw [send_of_last_retry h]; exact ⟨_, List.mem_singleton_self _, .inl h⟩
    | failure why => rw [send_of_failure h]; exact ⟨_, List.mem_singleton_self _, .inr h⟩
  | succ more ih =>
    cases h : (link.exchange store request).1.verdict read with
    | success a => rw [send_of_success h]; exact ⟨_, List.mem_singleton_self _, h⟩
    | failure why => rw [send_of_failure h]; exact ⟨_, List.mem_singleton_self _, .inr h⟩
    | retry why =>
      obtain ⟨exchange, mem, brings⟩ := ih (link.exchange store request).2
      rw [send_of_retry h]
      exact ⟨exchange, List.mem_cons_of_mem _ mem, brings⟩

theorem recorded_settle (attempts : Nat) (store : σ) (record : List (Request × Exchange)) :
    link.recorded.settle attempts read request (store, record) =
      ((link.settle attempts read request store).1, (link.settle attempts read request store).2,
        record ++ (link.settle attempts read request store).1.exchanges.map (request, ·)) := by
  cases sendable : request.isSendable with
  | true => simp only [settle, sendable, if_true, recorded_send]
  | false =>
    rw [settle_of_unsendable sendable, settle_of_unsendable sendable, List.map_nil,
      List.append_nil]

theorem settle_brings (sendable : request.isSendable = true) (attempts : Nat) (store : σ) :
    ∃ exchange ∈ (link.settle attempts read request store).1.exchanges,
      exchange.Brings read (link.settle attempts read request store).1.result := by
  rw [settle, if_pos sendable]
  exact link.send_brings read request (attempts - 1) store

end Link

end HedgedStore
