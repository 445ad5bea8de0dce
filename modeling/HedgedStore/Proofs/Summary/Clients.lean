import HedgedStore.Proofs.Summary.Sharing
import Mathlib.Data.List.Count

/-! Any number of clients with one family of summaries. Whatever they ask for and observe, and in
whatever order they have their turns, no series is lost: there is one for each tuple of label
values that was entered, all handles for the tuple are handles on it, and it counts all
observations that are made for the tuple. -/
namespace HedgedStore.SharedVec

open Summary (Fault Form Window timely timely_eq_ok)

/-- What a client does next. -/
inductive Call where
  /-- Asks for the series with these values. -/
  | ask (values : List String)
  /-- Observes through one of the handles that it got, counted from the first one. -/
  | observe (handle word : Nat) (x : Binary64)
deriving DecidableEq, Repr

structure Client where
  calls : List Call
  /-- What it has looked up and not found, and has yet to enter. -/
  missed : Option (List String) := none
  /-- The handles that it got, each with the values that it asked for. -/
  handles : List (List String × Nat) := []
  /-- The values for which it has observed, once for each observation. -/
  made : List (List String) := []
  /-- The values of the series that it created. -/
  created : List (List String) := []
deriving DecidableEq, Repr

namespace Client

def take (client : Client) (values : List String) (place : Nat) : Client :=
  { client with missed := none, handles := client.handles ++ [(values, place)] }

/-- The client has its turn. With a wrong number of values it is stopped for good. -/
def act (shared : SharedVec) (now : Instant) (client : Client) :
    Except Fault (SharedVec × Client) :=
  match client.missed, client.calls with
  | some values, _ => do
    let (place, later) ← shared.enter now values
    let created := client.created ++ shared.created later values
    return (later, { client with created }.take values place)
  | none, [] => .ok (shared, client)
  | none, .ask values :: calls =>
    match shared.checked values with
    | .error _ => .ok (shared, { client with calls := [] })
    | .ok () =>
      let client := { client with calls }
      match shared.find? values with
      | some place => .ok (shared, client.take values place)
      | none => .ok (shared, { client with missed := some values })
  | none, .observe handle word x :: calls =>
    match client.handles[handle]? with
    | none => .ok (shared, { client with calls })
    | some (values, place) => do
      let shared ← shared.observe now place word x
      return (shared, { client with calls, made := client.made ++ [values] })

def IsDone (client : Client) : Prop := client.missed = none ∧ client.calls = []

end Client

/-- The values for which a client is going to observe that has asked for `named` so far. -/
def Call.planned (labels : Nat) : List (List String) → List Call → List (List String)
  | _, [] => []
  | named, .ask values :: calls =>
    if values.length = labels then planned labels (named ++ [values]) calls else []
  | named, .observe handle _ _ :: calls => named[handle]?.toList ++ planned labels named calls

/-- A family and all who share it. -/
structure Sharing where
  shared : SharedVec
  clients : List Client
deriving Repr

namespace Sharing

def start (form : Form) (scripts : List (List Call)) : Sharing :=
  ⟨{ form }, scripts.map fun calls => { calls }⟩

/-- One of the clients has its turn at that time. -/
def turn (sharing : Sharing) (turn : Instant × Nat) : Except Fault Sharing :=
  match sharing.clients[turn.2]? with
  | none => .ok sharing
  | some client => do
    let (shared, client) ← client.act sharing.shared turn.1
    return ⟨shared, sharing.clients.set turn.2 client⟩

def run (sharing : Sharing) (turns : List (Instant × Nat)) : Except Fault Sharing :=
  turns.foldlM Sharing.turn sharing

/-- The values for which observations were made, once for each of them. -/
def made (sharing : Sharing) : List (List String) := sharing.clients.flatMap Client.made

/-- The values of all series that were created, once for each time that one was. -/
def created (sharing : Sharing) : List (List String) := sharing.clients.flatMap Client.created

end Sharing

/-! One turn. -/

variable {shared later : SharedVec} {client next : Client} {now : Instant}

namespace Client

/-- What a client may do when it has its turn. -/
inductive Acts (now : Instant) (shared : SharedVec) (client : Client) :
    SharedVec → Client → Prop where
  | idle (done : client.IsDone) : Acts now shared client shared client
  | stopped {values : List String} {calls : List Call} (ready : client.missed = none)
    (asks : client.calls = .ask values :: calls)
    (misfit : values.length ≠ shared.form.description.labels.length) :
    Acts now shared client shared { client with calls := [] }
  | found {values : List String} {calls : List Call} {place : Nat} (ready : client.missed = none)
    (asks : client.calls = .ask values :: calls)
    (fits : values.length = shared.form.description.labels.length)
    (found : shared.find? values = some place) :
    Acts now shared client shared (take { client with calls } values place)
  | missed {values : List String} {calls : List Call} (ready : client.missed = none)
    (asks : client.calls = .ask values :: calls)
    (fits : values.length = shared.form.description.labels.length)
    (absent : shared.find? values = none) :
    Acts now shared client shared { client with calls, missed := some values }
  | entered {values : List String} {place : Nat} {later : SharedVec}
    (missed : client.missed = some values) (enters : shared.enter now values = .ok (place, later)) :
    Acts now shared client later
      (take { client with created := client.created ++ shared.created later values } values place)
  | unheld {handle word : Nat} {x : Binary64} {calls : List Call} (ready : client.missed = none)
    (observes : client.calls = .observe handle word x :: calls)
    (unheld : client.handles[handle]? = none) :
    Acts now shared client shared { client with calls }
  | observed {handle word place : Nat} {x : Binary64} {values : List String} {calls : List Call}
    {later : SharedVec} (ready : client.missed = none)
    (observes : client.calls = .observe handle word x :: calls)
    (held : client.handles[handle]? = some (values, place))
    (observed : shared.observe now place word x = .ok later) :
    Acts now shared client later { client with calls, made := client.made ++ [values] }

theorem checked_of_fits {values : List String}
    (fits : values.length = shared.form.description.labels.length) :
    shared.checked values = .ok () :=
  if_pos fits

theorem checked_misfit {values : List String}
    (misfit : values.length ≠ shared.form.description.labels.length) :
    shared.checked values = .error (.cardinality shared.form.description.name values.length
      shared.form.description.labels.length) :=
  if_neg misfit

theorem acts_of_act (acted : client.act shared now = .ok (later, next)) :
    Acts now shared client later next := by
  unfold act at acted
  split at acted
  · rename_i values missed
    obtain ⟨⟨place, entered⟩, enters, acted⟩ := bind_eq_ok.mp acted
    obtain ⟨rfl, rfl⟩ := Prod.mk.inj (Except.ok.inj acted)
    exact .entered missed enters
  · rename_i ready nothing
    obtain ⟨rfl, rfl⟩ := Prod.mk.inj (Except.ok.inj acted)
    exact .idle ⟨ready, nothing⟩
  · rename_i values calls ready asks
    by_cases fits : values.length = shared.form.description.labels.length
    · simp only [checked_of_fits fits] at acted
      split at acted
      · rename_i place found
        obtain ⟨rfl, rfl⟩ := Prod.mk.inj (Except.ok.inj acted)
        exact .found ready asks fits found
      · rename_i absent
        obtain ⟨rfl, rfl⟩ := Prod.mk.inj (Except.ok.inj acted)
        exact .missed ready asks fits absent
    · simp only [checked_misfit fits] at acted
      obtain ⟨rfl, rfl⟩ := Prod.mk.inj (Except.ok.inj acted)
      exact .stopped ready asks fits
  · rename_i handle word x calls ready observes
    split at acted
    · rename_i unheld
      obtain ⟨rfl, rfl⟩ := Prod.mk.inj (Except.ok.inj acted)
      exact .unheld ready observes unheld
    · rename_i values place held
      obtain ⟨after, observed, acted⟩ := bind_eq_ok.mp acted
      obtain ⟨rfl, rfl⟩ := Prod.mk.inj (Except.ok.inj acted)
      exact .observed ready observes held observed

/-- The clock is all that can stop a client whom the others let have its turn. -/
theorem act_returns (client : Client)
    (room : now.nanos + shared.form.plan.slice.nanos < Instant.limit) :
    ∃ later next, client.act shared now = .ok (later, next) := by
  unfold act
  split
  · rename_i values _
    obtain ⟨place, later, enters⟩ := enter_returns room values
    exact ⟨later, _, by rw [enters]; rfl⟩
  · exact ⟨_, _, rfl⟩
  · split
    · exact ⟨_, _, rfl⟩
    · dsimp only
      split <;> exact ⟨_, _, rfl⟩
  · rename_i handle word x calls _ _
    split
    · exact ⟨_, _, rfl⟩
    · rename_i values place _
      obtain ⟨later, observed⟩ := observe_returns room place word x
      exact ⟨later, _, by rw [observed]; rfl⟩

/-- The handles of a client are those of the series that it asked for. -/
def Holds (shared : SharedVec) (client : Client) : Prop :=
  ∀ handle ∈ client.handles, shared.find? handle.1 = some handle.2

/-- The values for which the client has still to observe. -/
def owed (labels : Nat) (client : Client) : List (List String) :=
  Call.planned labels (client.handles.map (·.1) ++ client.missed.toList) client.calls

theorem Holds.grow (holds : client.Holds shared) (grows : shared.Grows later) :
    client.Holds later :=
  fun handle member => grows _ _ (holds handle member)

theorem Holds.take {values : List String} {place : Nat} (holds : client.Holds shared)
    (found : shared.find? values = some place) : (client.take values place).Holds shared := by
  intro handle member
  rcases List.mem_append.mp member with member | member
  · exact holds handle member
  · obtain rfl := List.mem_singleton.mp member
    exact found

theorem owed_of_done {labels : Nat} (done : client.IsDone) : client.owed labels = [] := by
  rw [owed, done.2, Call.planned]

/-- What the family is after a turn, and how the client stands to it. -/
structure Turned (shared : SharedVec) (client : Client) (later : SharedVec) (next : Client) :
    Prop where
  form : later.form = shared.form
  kept : later.Kept
  grows : shared.Grows later
  holds : next.Holds later
  count (values : List String) :
    later.count values + client.made.count values = shared.count values + next.made.count values
  once (values : List String) : (later.find? values).toList.length + client.created.count values =
    (shared.find? values).toList.length + next.created.count values
  all : later.series.length + client.created.length = shared.series.length + next.created.length

theorem Acts.turned (acts : Acts now shared client later next) (kept : shared.Kept)
    (holds : client.Holds shared) : Turned shared client later next := by
  cases acts with
  | idle | stopped | missed | unheld =>
    exact ⟨rfl, kept, .refl _, holds, fun _ => rfl, fun _ => rfl, rfl⟩
  | @found values calls place _ _ _ found =>
    have holds : Client.Holds shared { client with calls } := holds
    exact ⟨rfl, kept, .refl _, holds.take found, fun _ => rfl, fun _ => rfl, rfl⟩
  | @entered values place _ missed enters =>
    obtain ⟨form, kept, grows, found, count, once, all⟩ := kept.enter enters
    have holds : Client.Holds later
      { client with created := client.created ++ shared.created later values } := holds.grow grows
    refine ⟨form, kept, grows, holds.take found, fun values => ?_, fun other => ?_, ?_⟩
    · rw [count]
      rfl
    · simp only [once, take, List.count_append]
      omega
    · simp only [all, take, List.length_append]
      omega
  | observed ready observes held observed =>
    have found := holds _ (List.mem_of_getElem? held)
    obtain ⟨form, kept, find, all, count⟩ := kept.observe found observed
    refine ⟨form, kept, fun _ _ => find ▸ id, fun handle member => ?_, fun values => ?_,
      fun _ => find ▸ rfl, all ▸ rfl⟩
    · rw [find]
      exact holds handle member
    · simp only [count, List.count_append]
      omega

/-- A turn brings a client nearer to what it set out to do, and to nothing else. -/
theorem Acts.owed (acts : Acts now shared client later next) :
    next.made ++ next.owed shared.form.description.labels.length =
      client.made ++ client.owed shared.form.description.labels.length := by
  cases acts with
  | idle => rfl
  | stopped ready asks misfit => simp [Client.owed, ready, asks, Call.planned, misfit]
  | found ready asks fits _ => simp [Client.owed, ready, asks, Call.planned, fits, take]
  | missed ready asks fits _ => simp [Client.owed, ready, asks, Call.planned, fits]
  | entered missed _ => simp [Client.owed, missed, take]
  | unheld ready observes unheld => simp [Client.owed, ready, observes, Call.planned, unheld]
  | observed ready observes held _ => simp [Client.owed, ready, observes, Call.planned, held]

end Client

/-! All turns. -/

namespace Sharing

variable {sharing after : Sharing} {form : Form} {scripts : List (List Call)}

theorem turn_eq_ok {turn : Instant × Nat} (turned : sharing.turn turn = .ok after) :
    after = sharing ∨ ∃ client later next, sharing.clients[turn.2]? = some client ∧
      client.Acts turn.1 sharing.shared later next ∧
      after = ⟨later, sharing.clients.set turn.2 next⟩ := by
  unfold Sharing.turn at turned
  split at turned
  · exact .inl (Except.ok.inj turned).symm
  · rename_i client placed
    obtain ⟨⟨later, next⟩, acted, turned⟩ := bind_eq_ok.mp turned
    exact .inr ⟨client, later, next, placed, Client.acts_of_act acted,
      (Except.ok.inj turned).symm⟩

/-- What holds at any time while the clients go through their scripts. -/
structure Sound (form : Form) (scripts : List (List Call)) (sharing : Sharing) : Prop where
  same : sharing.shared.form = form
  kept : sharing.shared.Kept
  holds : ∀ client ∈ sharing.clients, client.Holds sharing.shared
  counted (values : List String) : sharing.shared.count values = sharing.made.count values
  once (values : List String) :
    (sharing.shared.find? values).toList.length = sharing.created.count values
  all : sharing.shared.series.length = sharing.created.length
  owed : sharing.clients.map (fun client =>
      client.made ++ client.owed form.description.labels.length) =
    scripts.map (Call.planned form.description.labels.length [])

theorem made_start : (Sharing.start form scripts).made = [] := by
  simp [Sharing.start, made]

theorem created_start : (Sharing.start form scripts).created = [] := by
  simp [Sharing.start, created]

theorem Sound.start (form : Form) (scripts : List (List Call)) :
    (Sharing.start form scripts).Sound form scripts where
  same := rfl
  kept := Kept.start form
  holds := by
    intro client member
    obtain ⟨calls, -, rfl⟩ := List.mem_map.mp member
    exact nofun
  counted _ := by
    rw [made_start]
    rfl
  once _ := by
    rw [created_start]
    rfl
  all := by
    rw [created_start]
    rfl
  owed := by
    simp [Sharing.start, Client.owed]

/-- What all clients have recorded, before and after one of them had its turn. -/
theorem flatMap_set_perm {clients : List Client} {place : Nat} {client : Client}
    (placed : clients[place]? = some client) (next : Client) (f : Client → List (List String)) :
    ((clients.set place next).flatMap f ++ f client).Perm (clients.flatMap f ++ f next) := by
  obtain ⟨inside, rfl⟩ := List.getElem?_eq_some_iff.mp placed
  obtain ⟨before, behind, parts, -, set⟩ := @List.exists_of_set _ _ next _ inside
  rw [set]
  conv_rhs => rw [parts]
  rw [List.perm_iff_count]
  intro values
  simp only [List.flatMap_append, List.flatMap_cons, List.count_append]
  omega

/-- A turn keeps all that, and what a tuple stands for. -/
theorem Sound.turn {turn : Instant × Nat} (sound : sharing.Sound form scripts)
    (turned : sharing.turn turn = .ok after) :
    after.Sound form scripts ∧ sharing.shared.Grows after.shared := by
  obtain rfl | ⟨client, later, next, placed, acts, rfl⟩ := turn_eq_ok turned
  · exact ⟨sound, .refl _⟩
  have member := List.mem_of_getElem? placed
  have own := acts.turned sound.kept (sound.holds client member)
  have made := flatMap_set_perm placed next Client.made
  have created := flatMap_set_perm placed next Client.created
  refine ⟨⟨own.form.trans sound.same, own.kept, ?_, fun values => ?_, fun values => ?_, ?_, ?_⟩,
    own.grows⟩
  · intro other member
    rcases List.mem_or_eq_of_mem_set member with member | rfl
    · exact (sound.holds other member).grow own.grows
    · exact own.holds
  · have others := made.count_eq values
    have before := sound.counted values
    have step := own.count values
    simp only [Sharing.made, List.count_append] at others before ⊢
    omega
  · have others := created.count_eq values
    have before := sound.once values
    have step := own.once values
    simp only [Sharing.created, List.count_append] at others before ⊢
    omega
  · have others := created.length_eq
    have before := sound.all
    have step := own.all
    simp only [Sharing.created, List.length_append] at others before ⊢
    omega
  · rw [← sound.owed]
    exact map_set_of_eq placed (sound.same ▸ acts.owed)

theorem Sound.run {turns : List (Instant × Nat)} (sound : sharing.Sound form scripts)
    (ran : sharing.run turns = .ok after) :
    after.Sound form scripts ∧ sharing.shared.Grows after.shared := by
  -- by the turns, each of which keeps what the clients rely on
  refine foldlM_keeps (P := fun state =>
    state.Sound form scripts ∧ sharing.shared.Grows state.shared) ?_ ⟨sound, .refl _⟩ ran
  rintro state turn next ⟨sound, grows⟩ turned
  obtain ⟨sound, more⟩ := sound.turn turned
  exact ⟨sound, fun values place found => more values place (grows values place found)⟩

theorem Sound.turn_returns {turn : Instant × Nat} (sound : sharing.Sound form scripts)
    (room : turn.1.nanos + form.plan.slice.nanos < Instant.limit) :
    ∃ after, sharing.turn turn = .ok after := by
  unfold Sharing.turn
  cases sharing.clients[turn.2]? with
  | none => exact ⟨sharing, rfl⟩
  | some client =>
    obtain ⟨later, next, acted⟩ := client.act_returns (sound.same.symm ▸ room)
    exact ⟨_, bind_eq_ok.mpr ⟨(later, next), acted, rfl⟩⟩

theorem Sound.run_returns {turns : List (Instant × Nat)} (sound : sharing.Sound form scripts)
    (room : ∀ turn ∈ turns, turn.1.nanos + form.plan.slice.nanos < Instant.limit) :
    ∃ after, sharing.run turns = .ok after := by
  refine foldlM_returns (P := fun state turns => state.Sound form scripts ∧
    ∀ turn ∈ turns, turn.1.nanos + form.plan.slice.nanos < Instant.limit) ?_ ⟨sound, room⟩
  rintro state turn turns ⟨sound, room⟩
  obtain ⟨first, rest⟩ := List.forall_mem_cons.mp room
  obtain ⟨next, turned⟩ := sound.turn_returns first
  exact ⟨next, turned, (sound.turn turned).1, rest⟩

/-- Nothing that the clients asked for or observed is lost. -/
structure NothingLost (form : Form) (scripts : List (List Call)) (sharing : Sharing) : Prop where
  /-- For each tuple at most one series was ever created. -/
  once : sharing.created.Nodup
  /-- Each series was created for a tuple, and is the one of that tuple and of no other. -/
  all : sharing.created.length = sharing.shared.series.length
  kept : sharing.shared.Kept
  /-- However the clients go on, no series is replaced. -/
  lasting (turns : List (Instant × Nat)) (after : Sharing) :
    sharing.run turns = .ok after → sharing.shared.Grows after.shared
  /-- The handles that were handed out for a tuple are handles on its series. -/
  holds : ∀ client ∈ sharing.clients, client.Holds sharing.shared
  /-- Every observation made so far is counted by the series of its tuple. -/
  counted (values : List String) : sharing.shared.count values = sharing.made.count values
  /-- In the end all is counted that the scripts ask for. -/
  complete : (∀ client ∈ sharing.clients, client.IsDone) → ∀ values,
    sharing.shared.count values =
      (scripts.flatMap (Call.planned form.description.labels.length [])).count values

theorem Sound.nothingLost (sound : sharing.Sound form scripts) :
    sharing.NothingLost form scripts where
  once := by
    rw [List.nodup_iff_count_le_one]
    intro values
    rw [← sound.once]
    exact Option.length_toList_le
  all := sound.all.symm
  kept := sound.kept
  lasting _ _ ran := (sound.run ran).2
  holds := sound.holds
  counted := sound.counted
  complete := by
    intro done values
    have made : sharing.clients.map Client.made =
        scripts.map (Call.planned form.description.labels.length []) := by
      rw [← sound.owed]
      refine List.map_congr_left fun client member => ?_
      rw [Client.owed_of_done (done client member), List.append_nil]
    rw [sound.counted, Sharing.made, List.flatMap_def, made, List.flatMap_def]

end Sharing

/-- However many clients share a family, whatever they ask for and observe, and in whatever order
they have their turns: nothing is lost, and none of them is stopped while the clock counts a slice
further. -/
theorem nothing_lost_among_clients (form : Form) (scripts : List (List Call))
    (turns : List (Instant × Nat)) :
    ((∀ turn ∈ turns, turn.1.nanos + form.plan.slice.nanos < Instant.limit) →
      ∃ sharing, (Sharing.start form scripts).run turns = .ok sharing) ∧
    ∀ sharing, (Sharing.start form scripts).run turns = .ok sharing →
      sharing.NothingLost form scripts := by
  have start := Sharing.Sound.start form scripts
  exact ⟨start.run_returns, fun sharing ran => (start.run ran).1.nothingLost⟩

/-- A family with one label. -/
def singleForm : Form where
  description := { name := "w", help := "h", labels := ["l"] }
  plan := { slice := ⟨10⟩, slices := 2, capacity := 2 }

def onceScript : List Call := [.ask ["a"], .observe 0 7 .one]

/-- Two clients look for the same series and miss it. The one that looked later enters it. -/
def crossedTurns : List (Instant × Nat) :=
  [(⟨0⟩, 0), (⟨0⟩, 1), (⟨1⟩, 1), (⟨2⟩, 0), (⟨3⟩, 0), (⟨4⟩, 1)]

theorem nothing_lost_when_crossed :
    ∃ sharing, (Sharing.start singleForm [onceScript, onceScript]).run crossedTurns = .ok sharing ∧
      sharing.shared.series.length = 1 ∧ sharing.shared.count ["a"] = 2 := by
  obtain ⟨returns, keeps⟩ :=
    nothing_lost_among_clients singleForm [onceScript, onceScript] crossedTurns
  obtain ⟨sharing, ran⟩ := returns (by decide)
  have seen : ((Sharing.start singleForm [onceScript, onceScript]).run crossedTurns).toOption.all
      (fun sharing => sharing.shared.series.length = 1 ∧
        ∀ client ∈ sharing.clients, client.missed = none ∧ client.calls = []) = true := by
    decide +kernel
  rw [ran] at seen
  obtain ⟨one, done⟩ := of_decide_eq_true seen
  exact ⟨sharing, ran, one, (keeps sharing ran).complete done ["a"]⟩

end HedgedStore.SharedVec
