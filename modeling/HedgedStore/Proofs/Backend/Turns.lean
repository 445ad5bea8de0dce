import HedgedStore.Proofs.Backend.Accounts
import HedgedStore.Proofs.Backend.Listing

/-! What a task does in one go, and what it leaves in the accounts of uploads. Its effects account
for just what has changed about the task: whether it has begun with its body compressed, whether
its race is over, and whether that has made a hedge and adopted it. -/
namespace HedgedStore

theorem Upload.effects_counts (upload : Upload) (actions : List Hedge.Action) :
    (actions.flatMap upload.effects).filterMap Effect.size? = [] ∧
      (actions.flatMap upload.effects).countP Effect.isRatio = 0 ∧
      (actions.flatMap upload.effects).count (.measure .hedgeLaunched) =
        actions.count .countLaunch ∧
      (actions.flatMap upload.effects).count (.measure .hedgeAdopted) = actions.count .countWin := by
  induction actions with
  | nil => exact ⟨rfl, rfl, rfl, rfl⟩
  | cons action actions ih =>
    obtain ⟨sizes, ratios, launches, wins⟩ := ih
    rw [List.flatMap_cons, List.filterMap_append, List.countP_append, List.count_append,
      List.count_append, sizes, ratios, launches, wins]
    cases action <;> simp [effects, Hedge.Action.event?, Effect.size?, Effect.isRatio,
      List.filterMap_cons, Nat.add_comm]

/-- A step of an upload measures its size if it ends the race, and counts what the race counts. -/
theorem Upload.step_counts (upload : Upload)
    (next : Hedge.Phase (Except Failure Unit) × List Hedge.Action) (elapsed : Duration) :
    (upload.step next elapsed).2.filterMap Effect.size? =
        (if upload.phase.outcome?.isNone && next.1.outcome?.isSome then
          [upload.request.body.length] else []) ∧
      (upload.step next elapsed).2.countP Effect.isRatio = 0 ∧
      (upload.step next elapsed).2.count (.measure .hedgeLaunched) = next.2.count .countLaunch ∧
      (upload.step next elapsed).2.count (.measure .hedgeAdopted) = next.2.count .countWin := by
  obtain ⟨sizes, ratios, launches, wins⟩ := upload.effects_counts next.2
  simp only [step, List.filterMap_append, List.countP_append, List.count_append, sizes, ratios,
    launches, wins]
  cases upload.phase.outcome? <;> cases next.1.outcome? <;>
    simp [Effect.size?, Effect.isRatio, List.filterMap_cons]

/-- An upload begins by measuring how well its body was compressed, if it was. -/
theorem UploadOptions.measured_counts (options : UploadOptions) (data : Bytes) :
    (options.measured data).filterMap Effect.size? = [] ∧
      (options.measured data).countP Effect.isRatio = (if options.compress then 1 else 0) ∧
      (options.measured data).count (.measure .hedgeLaunched) = 0 ∧
      (options.measured data).count (.measure .hedgeAdopted) = 0 := by
  cases compress : options.compress <;> simp [measured, compress, Effect.size?, Effect.isRatio]

/-! A query ends in its own way, and leaves the accounts of uploads alone. -/

namespace Query

variable (backend : Backend)

theorem conclude_aloof (query : Query) (found : Except Refusal query.Found) :
    ∀ effect ∈ (query.conclude backend found).2, effect.isAloof = true := by
  cases query with
  | fetch key => cases found <;> simp [conclude, Backend.fetched, Effect.isAloof]
  | list start => cases found <;> simp [conclude, Backend.listed, Effect.isAloof]
  | copy source target => simp [conclude, Backend.copied, Effect.isAloof]
  | delete key => simp [conclude, Backend.deleted, Effect.isAloof]

theorem conclude_isCompress (query : Query) (found : Except Refusal query.Found)
    {failure : Failure} (failed : (query.conclude backend found).1 = .error failure) :
    failure.isCompress = false := by
  cases query with
  | fetch key =>
    cases found with
    | error why =>
      obtain rfl := Except.error.inj failed
      rfl
    | ok object =>
      simp only [conclude, Backend.fetched, Backend.unpack] at failed
      split at failed
      · obtain rfl := Except.error.inj failed
        rfl
      · split at failed
        · split at failed
          · cases failed
          · obtain rfl := Except.error.inj failed
            rfl
        · cases failed
  | list start =>
    cases found with
    | error why =>
      obtain rfl := Except.error.inj failed
      rfl
    | ok listing =>
      obtain ⟨reason, rfl, -⟩ := Backend.callerKeys_eq_error_iff.mp failed
      rfl
  | copy source target =>
    cases found with
    | error why =>
      obtain rfl := Except.error.inj failed
      rfl
    | ok done => cases failed
  | delete key =>
    cases found with
    | error why =>
      obtain rfl := Except.error.inj failed
      rfl
    | ok done => cases failed

end Query

theorem Errand.receive_aloof {α : Type} (now : Instant) (exchange : Exchange) (errand : Errand α) :
    ∀ measurement ∈ (errand.receive now exchange).2,
      (Effect.measure measurement).isAloof = true := by
  intro measurement mem
  unfold receive at mem
  split at mem
  · obtain ⟨answer, -, read⟩ := Option.bind_eq_some_iff.mp (Option.mem_toList.mp mem)
    obtain ⟨started, -, rfl⟩ := Option.map_eq_some_iff.mp read
    rfl
  · cases mem

namespace Task

def isUpload (task : Task) : Bool :=
  match task.demand with
  | .upload _ => true
  | .ask _ => false

/-- The length of the body, as it goes over the wire, once the upload has reached its race. -/
def size? : Task → Option Nat
  | post sent => some sent.order.wireBody.length
  | _ => none

/-- The upload has reached its race, and its body was to be compressed. -/
def isCompressed : Task → Bool
  | post sent => sent.order.options.compress
  | _ => false

def madeHedge : Task → Bool
  | post sent => sent.actions.contains (.call .hedge)
  | _ => false

def adoptedHedge : Task → Bool
  | post sent => sent.upload.phase.adoptsHedge
  | _ => false

/-- The failure that the operation has returned. -/
def failure? : Task → Option Failure
  | post sent =>
    match sent.upload.result? with
    | some (.error failure) => some failure
    | _ => none
  | inquiry asked =>
    match asked.result with
    | some (.error failure) => some failure
    | _ => none
  | refused _ why => some why
  | order _ | dropped _ => none

theorem size_of_completed {task : Task} (completed : task.isCompleted = true) :
    ∃ bytes, task.size? = some bytes := by
  cases task with
  | post sent => exact ⟨_, rfl⟩
  | order | refused | inquiry | dropped => cases completed

/-- One goes on to be the other by effects that account for the difference. -/
structure Turns (task next : Task) (effects : List Effect) : Prop where
  sizes : effects.filterMap Effect.size? =
    if !task.isCompleted && next.isCompleted then next.size?.toList else []
  ratios : effects.countP Effect.isRatio + (if task.isCompressed then 1 else 0) =
    if next.isCompressed then 1 else 0
  hedges : effects.count (.measure .hedgeLaunched) + (if task.madeHedge then 1 else 0) =
    if next.madeHedge then 1 else 0
  wins : effects.count (.measure .hedgeAdopted) + (if task.adoptedHedge then 1 else 0) =
    if next.adoptedHedge then 1 else 0
  /-- A race that is over stays so. -/
  settled : task.isCompleted = true → next.isCompleted = true ∧ next.size? = task.size?
  demand : next.demand = task.demand

structure Sound (task : Task) : Prop where
  tells : ∀ sent, task = post sent → sent.upload.phase.Tells sent.actions
  /-- What is sent is the body that was ordered. -/
  body : ∀ sent, task = post sent → sent.upload.request.body = sent.order.wireBody
  /-- No upload fails before its race. -/
  unrefused : ∀ placed why, task ≠ refused placed why
  uncompressing : ∀ failure, task.failure? = some failure → failure.isCompress = false

theorem failure_of_post {sent : Post} {failure : Failure} :
    (post sent).failure? = some failure ↔
      ∃ outcome, sent.upload.phase = .finished outcome ∧ outcome.result = .error failure := by
  simp only [failure?, Upload.result?]
  constructor
  · intro failed
    split at failed
    · rename_i other ended
      obtain ⟨outcome, completed, result⟩ := Option.map_eq_some_iff.mp ended
      obtain rfl := Option.some.inj failed
      exact ⟨outcome, Hedge.Phase.outcome_eq_some.mp completed, result⟩
    · cases failed
  · rintro ⟨outcome, ended, failed⟩
    simp [ended, Hedge.Phase.outcome?, failed]

theorem failure_of_inquiry {asked : Inquiry} {failure : Failure} :
    (inquiry asked).failure? = some failure ↔ asked.result = some (.error failure) := by
  simp only [failure?]
  constructor
  · intro failed
    split at failed
    · rename_i other ended
      obtain rfl := Option.some.inj failed
      exact ended
    · cases failed
  · intro ended
    simp [ended]

theorem sound_inquiry {asked : Inquiry}
    (uncompressing : ∀ failure, asked.result = some (.error failure) →
      failure.isCompress = false) : (inquiry asked).Sound where
  tells := by
    intro sent same
    cases same
  body := by
    intro sent same
    cases same
  unrefused := fun _ _ same => nomatch same
  uncompressing := fun failure failed => uncompressing failure (failure_of_inquiry.mp failed)

theorem sound_order (placed : Order) : (order placed).Sound where
  tells := by
    intro sent same
    cases same
  body := by
    intro sent same
    cases same
  unrefused := fun _ _ same => nomatch same
  uncompressing := by
    intro failure failed
    cases failed

theorem sound_dropped (demand : Demand) : (dropped demand).Sound where
  tells := by
    intro sent same
    cases same
  body := by
    intro sent same
    cases same
  unrefused := fun _ _ same => nomatch same
  uncompressing := by
    intro failure failed
    cases failed

/-- Effects that are none of uploads' account for a change that is none to an upload's accounts. -/
theorem turns_of_aloof {task next : Task} {effects : List Effect}
    (aloof : ∀ effect ∈ effects, effect.isAloof = true)
    (completed : next.isCompleted = task.isCompleted) (size : next.size? = task.size?)
    (compressed : next.isCompressed = task.isCompressed) (made : next.madeHedge = task.madeHedge)
    (adopted : next.adoptedHedge = task.adoptedHedge) (demand : next.demand = task.demand) :
    task.Turns next effects := by
  have unsized : effects.filterMap Effect.size? = [] := by
    refine List.filterMap_eq_nil_iff.mpr fun effect mem => ?_
    have := aloof effect mem
    cases effect with
    | tell event => rfl
    | measure measurement =>
      cases measurement with
      | uploadSize bytes => cases this
      | _ => rfl
  have unrated : effects.countP Effect.isRatio = 0 := by
    refine List.countP_eq_zero.mpr fun effect mem ratio => ?_
    have := aloof effect mem
    cases effect with
    | tell event => cases ratio
    | measure measurement =>
      cases measurement with
      | compressRatio bytes => cases this
      | _ => cases ratio
  have unlaunched : effects.count (.measure .hedgeLaunched) = 0 :=
    List.count_eq_zero.mpr fun mem => nomatch aloof _ mem
  have unadopted : effects.count (.measure .hedgeAdopted) = 0 :=
    List.count_eq_zero.mpr fun mem => nomatch aloof _ mem
  refine ⟨?_, ?_, ?_, ?_, fun past => ⟨completed.trans past, size⟩, demand⟩
  · rw [unsized, completed]
    cases task.isCompleted <;> rfl
  · rw [unrated, compressed, Nat.zero_add]
  · rw [unlaunched, made, Nat.zero_add]
  · rw [unadopted, adopted, Nat.zero_add]

theorem Turns.refl (task : Task) : task.Turns task [] :=
  turns_of_aloof Effect.aloof_nil rfl rfl rfl rfl rfl rfl

end Task

namespace Post

variable (backend : Backend)

theorem foldl_act (sent : Post) (actions : List Hedge.Action) :
    ∃ errands, actions.foldl (act backend) sent = { sent with errands } := by
  induction actions generalizing sent with
  | nil => exact ⟨sent.errands, rfl⟩
  | cons action actions ih =>
    have acted : ∃ errands, sent.act backend action = { sent with errands } := by
      cases action <;> exact ⟨_, rfl⟩
    obtain ⟨errands, acted⟩ := acted
    obtain ⟨later, rest⟩ := ih { sent with errands }
    exact ⟨later, by rw [List.foldl_cons, acted, rest]⟩

theorem turn_upload (sent : Post) (actions : List Hedge.Action) (next : Upload × List Effect) :
    (sent.turn backend actions next).1.upload = next.1 := by
  obtain ⟨errands, acted⟩ := foldl_act backend
    { sent with upload := next.1, actions := sent.actions ++ actions } actions
  rw [turn, acted]

theorem turn_order (sent : Post) (actions : List Hedge.Action) (next : Upload × List Effect) :
    (sent.turn backend actions next).1.order = sent.order := by
  obtain ⟨errands, acted⟩ := foldl_act backend
    { sent with upload := next.1, actions := sent.actions ++ actions } actions
  rw [turn, acted]

theorem turn_actions (sent : Post) (actions : List Hedge.Action) (next : Upload × List Effect) :
    (sent.turn backend actions next).1.actions = sent.actions ++ actions := by
  obtain ⟨errands, acted⟩ := foldl_act backend
    { sent with upload := next.1, actions := sent.actions ++ actions } actions
  rw [turn, acted]

/-- A step of the race accounts for what it changes, if it leaves a race alone that is over. -/
theorem turn_turns {sent : Post} (sound : (Task.post sent).Sound)
    {next : Hedge.Phase (Except Failure Unit) × List Hedge.Action}
    (after : next.1.Tells (sent.actions ++ next.2))
    (settled : sent.upload.phase.outcome?.isSome = true → next.1 = sent.upload.phase)
    (elapsed : Duration) :
    (Task.post sent).Turns (.post (sent.turn backend next.2 (sent.upload.step next elapsed)).1)
      (sent.turn backend next.2 (sent.upload.step next elapsed)).2 := by
  obtain ⟨sizes, ratios, launches, wins⟩ := sent.upload.step_counts next elapsed
  have tells := sound.tells sent rfl
  have made := after.launches
  have adopted := after.won
  rw [List.count_append, tells.launches, Nat.add_comm] at made
  rw [List.count_append, tells.won, Nat.add_comm] at adopted
  let upload := sent.upload.step next elapsed
  have upload_eq := sent.turn_upload backend next.2 upload
  have order_eq := sent.turn_order backend next.2 upload
  have actions_eq := sent.turn_actions backend next.2 upload
  constructor
  case sizes =>
    rw [Task.isCompleted, Task.isCompleted, Task.outcome?, Task.outcome?, Task.size?, upload_eq,
      order_eq, ← sound.body sent rfl]
    refine sizes.trans ?_
    cases sent.upload.phase.outcome? <;> rfl
  case ratios =>
    rw [Task.isCompressed, Task.isCompressed, order_eq]
    exact (congrArg (· + _) ratios).trans (Nat.zero_add _)
  case hedges =>
    rw [Task.madeHedge, Task.madeHedge, actions_eq]
    exact (congrArg (· + _) launches).trans made
  case wins =>
    rw [Task.adoptedHedge, Task.adoptedHedge, upload_eq]
    exact (congrArg (· + _) wins).trans adopted
  case settled =>
    intro past
    rw [Task.isCompleted, Task.outcome?, Task.size?, Task.size?, upload_eq, order_eq]
    refine ⟨?_, rfl⟩
    have same : upload.1.phase = sent.upload.phase := settled past
    rw [same]
    exact past
  case demand => rw [Task.demand, Task.demand, order_eq]

theorem result_isCompress {sent : Post} {attempt : Hedge.Attempt} {failure : Failure}
    (failed : sent.result? backend attempt = some (.error failure)) :
    failure.isCompress = false := by
  obtain ⟨result, -, refused⟩ := Option.map_eq_some_iff.mp failed
  cases result with
  | ok done => cases refused
  | error why =>
    obtain rfl := Except.error.inj refused
    exact Backend.refused_isCompress _ _ _

theorem turn_sound {sent : Post} (sound : (Task.post sent).Sound)
    {next : Hedge.Phase (Except Failure Unit) × List Hedge.Action}
    (after : next.1.Tells (sent.actions ++ next.2))
    (settled : sent.upload.phase.outcome?.isSome = true → next.1 = sent.upload.phase)
    (uncompressing : ∀ outcome failure, next.1 = .finished outcome →
      outcome.result = .error failure → failure.isCompress = false) (elapsed : Duration) :
    (Task.post (sent.turn backend next.2 (sent.upload.step next elapsed)).1).Sound ∧
      (Task.post sent).Turns (.post (sent.turn backend next.2 (sent.upload.step next elapsed)).1)
        (sent.turn backend next.2 (sent.upload.step next elapsed)).2 := by
  refine ⟨?_, turn_turns backend sound after settled elapsed⟩
  constructor
  case tells =>
    intro later same
    obtain rfl := Task.post.inj same
    rw [turn_upload, turn_actions]
    exact after
  case body =>
    intro later same
    obtain rfl := Task.post.inj same
    rw [turn_upload, turn_order]
    exact sound.body sent rfl
  case unrefused => exact fun _ _ same => nomatch same
  case uncompressing =>
    intro failure failed
    obtain ⟨outcome, ended, result⟩ := Task.failure_of_post.mp failed
    rw [turn_upload] at ended
    exact uncompressing outcome failure ended result

theorem poll_sound {sent : Post} (sound : (Task.post sent).Sound) (now : Instant) (fired : Bool) :
    (Task.post (sent.poll backend now fired).1).Sound ∧
      (Task.post sent).Turns (.post (sent.poll backend now fired).1)
        (sent.poll backend now fired).2 := by
  have after := (sound.tells sent rfl).poll (sent.view backend now fired)
  refine turn_sound backend sound after ?_ ?_ (now.since sent.begun)
  · intro ended
    have past := Hedge.Phase.isOver_of_outcome ended
    exact congrArg Prod.fst (Hedge.Phase.poll_of_isOver past (sent.view backend now fired))
  · intro outcome failure ended failed
    rcases Hedge.Phase.poll_outcome ended with past | primary | again | hedge
    · exact sound.uncompressing failure (Task.failure_of_post.mpr ⟨outcome, past, failed⟩)
    · rw [failed] at primary
      exact result_isCompress backend primary
    · rw [failed] at again
      exact result_isCompress backend again
    · rw [failed] at hedge
      exact result_isCompress backend hedge

theorem drop_sound {sent : Post} (sound : (Task.post sent).Sound) (now : Instant) :
    (Task.post (sent.drop backend now).1).Sound ∧
      (Task.post sent).Turns (.post (sent.drop backend now).1) (sent.drop backend now).2 := by
  refine turn_sound backend sound (sound.tells sent rfl).drop ?_ ?_ (now.since sent.begun)
  · intro ended
    have past := Hedge.Phase.isOver_of_outcome ended
    exact congrArg Prod.fst (Hedge.Phase.drop_of_isOver past)
  · intro outcome failure ended failed
    refine sound.uncompressing failure (Task.failure_of_post.mpr ⟨outcome, ?_, failed⟩)
    cases phase : sent.upload.phase with
    | finished other =>
      rw [phase] at ended
      exact ended
    | created | waiting | hedged | dropped =>
      rw [phase] at ended
      cases ended

end Post

/-- A poll of a query looks after its request, or concludes it. -/
theorem Inquiry.polled (backend : Backend) (asked : Inquiry) :
    (∃ errand, asked.poll backend = ({ asked with errand }, [])) ∨
      ∃ found, asked.poll backend =
        ({ asked with
            errand := none
            result := some (asked.query.conclude backend found).1 },
          (asked.query.conclude backend found).2) := by
  unfold poll
  split
  · exact .inl ⟨asked.errand, rfl⟩
  · dsimp only
    split
    · exact .inl ⟨_, rfl⟩
    · exact .inr ⟨_, rfl⟩

/-! Every way in which a task goes on. -/

namespace Task

variable (backend : Backend) {task : Task}

/-- The upload goes into its race. -/
def begun (placed : Order) (now : Instant) : Post where
  order := placed
  upload := backend.prepared placed.key placed.data placed.options
  begun := now

theorem poll_order (placed : Order) (now : Instant) (fired : Bool) :
    (order placed).poll backend now fired =
      (post ((begun backend placed now).poll backend now fired).1,
        placed.options.measured placed.data ++
          ((begun backend placed now).poll backend now fired).2) := by
  rw [poll, backend.upload_eq]
  rfl

theorem sound_begun (placed : Order) (now : Instant) :
    (post (begun backend placed now)).Sound where
  tells := by
    intro sent same
    obtain rfl := Task.post.inj same
    exact Hedge.Phase.tells_created
  body := by
    intro sent same
    obtain rfl := Task.post.inj same
    rfl
  unrefused := fun _ _ same => nomatch same
  uncompressing := by
    intro failure failed
    cases failed

theorem poll_sound (sound : task.Sound) (now : Instant) (fired : Bool) :
    (task.poll backend now fired).1.Sound ∧
      task.Turns (task.poll backend now fired).1 (task.poll backend now fired).2 := by
  cases task with
  | order placed =>
    rw [poll_order]
    obtain ⟨later, turns⟩ := Post.poll_sound backend (sound_begun backend placed now) now fired
    refine ⟨later, ?_⟩
    -- The measured ratio makes up for the upload's not having begun before.
    obtain ⟨sizes, ratios, hedges, wins⟩ := placed.options.measured_counts placed.data
    constructor
    case sizes =>
      rw [List.filterMap_append, sizes]
      exact turns.sizes
    case ratios =>
      rw [List.countP_append, ratios, Nat.add_comm (if placed.options.compress then 1 else 0)]
      exact turns.ratios
    case hedges =>
      rw [List.count_append, hedges, Nat.zero_add]
      exact turns.hedges
    case wins =>
      rw [List.count_append, wins, Nat.zero_add]
      exact turns.wins
    case settled =>
      intro past
      cases past
    case demand => exact turns.demand
  | refused placed why => exact ⟨sound, .refl _⟩
  | post sent => exact Post.poll_sound backend sound now fired
  | inquiry asked =>
    have kept : ∀ failure, asked.result = some (.error failure) → failure.isCompress = false :=
      fun failure failed => sound.uncompressing failure (failure_of_inquiry.mpr failed)
    rcases asked.polled backend with ⟨errand, polled⟩ | ⟨found, polled⟩
    · rw [poll, polled]
      exact ⟨sound_inquiry kept, turns_of_aloof Effect.aloof_nil rfl rfl rfl rfl rfl rfl⟩
    · rw [poll, polled]
      refine ⟨sound_inquiry fun failure failed => ?_,
        turns_of_aloof (Query.conclude_aloof backend _ found) rfl rfl rfl rfl rfl rfl⟩
      exact Query.conclude_isCompress backend _ found (Option.some.inj failed)
  | dropped demand => exact ⟨sound, .refl _⟩

theorem drop_sound (sound : task.Sound) (now : Instant) :
    (task.drop backend now).1.Sound ∧
      task.Turns (task.drop backend now).1 (task.drop backend now).2 := by
  cases task with
  | order placed =>
    exact ⟨sound_dropped _, turns_of_aloof Effect.aloof_nil rfl rfl rfl rfl rfl rfl⟩
  | refused placed why => exact ⟨sound, .refl _⟩
  | post sent => exact Post.drop_sound backend sound now
  | inquiry asked =>
    simp only [drop]
    split
    · exact ⟨sound, .refl _⟩
    · exact ⟨sound_dropped _, turns_of_aloof Effect.aloof_nil rfl rfl rfl rfl rfl rfl⟩
  | dropped demand => exact ⟨sound, .refl _⟩

theorem poll_aloof (task : Task) (other : task.isUpload = false) (now : Instant) (fired : Bool) :
    ∀ effect ∈ (task.poll backend now fired).2, effect.isAloof = true := by
  cases task with
  | order | refused | post => cases other
  | inquiry asked =>
    rcases asked.polled backend with ⟨errand, polled⟩ | ⟨found, polled⟩
    · rw [poll, polled]
      exact Effect.aloof_nil
    · rw [poll, polled]
      exact Query.conclude_aloof backend asked.query found
  | dropped demand => exact Effect.aloof_nil

theorem drop_aloof (task : Task) (other : task.isUpload = false) (now : Instant) :
    ∀ effect ∈ (task.drop backend now).2, effect.isAloof = true := by
  cases task with
  | order | refused | post => cases other
  | inquiry | dropped => exact Effect.aloof_nil

theorem correspond_demand (task : Task) (attempt : Hedge.Attempt)
    (turn : ∀ α : Type, Errand α → Errand α × List Measurement) :
    (task.correspond attempt turn).1.demand = task.demand := by
  unfold correspond
  split
  · split <;> rfl
  · split <;> rfl
  · rfl

theorem correspond_sound (sound : task.Sound) (attempt : Hedge.Attempt)
    {turn : ∀ α : Type, Errand α → Errand α × List Measurement}
    (aloof : ∀ α errand, ∀ measurement ∈ (turn α errand).2,
      (Effect.measure measurement).isAloof = true) :
    (task.correspond attempt turn).1.Sound ∧
      task.Turns (task.correspond attempt turn).1 (task.correspond attempt turn).2 ∧
      ∀ effect ∈ (task.correspond attempt turn).2, effect.isAloof = true := by
  have measured : ∀ α errand, ∀ effect ∈ (turn α errand).2.map Effect.measure,
      effect.isAloof = true := by
    intro α errand effect mem
    obtain ⟨measurement, measured, rfl⟩ := List.mem_map.mp mem
    exact aloof α errand measurement measured
  cases task with
  | order | refused | dropped => exact ⟨sound, .refl _, Effect.aloof_nil⟩
  | post sent =>
    cases found : sent.errands attempt with
    | none =>
      simp only [correspond, found]
      exact ⟨sound, .refl _, Effect.aloof_nil⟩
    | some errand =>
      simp only [correspond, found]
      refine ⟨?_, turns_of_aloof (measured _ errand) rfl rfl rfl rfl rfl rfl, measured _ errand⟩
      constructor
      case tells =>
        intro later same
        obtain rfl := Task.post.inj same
        exact sound.tells sent rfl
      case body =>
        intro later same
        obtain rfl := Task.post.inj same
        exact sound.body sent rfl
      case unrefused => exact fun _ _ same => nomatch same
      case uncompressing => exact fun failure failed => sound.uncompressing failure failed
  | inquiry asked =>
    have kept : ∀ failure, asked.result = some (.error failure) → failure.isCompress = false :=
      fun failure failed => sound.uncompressing failure (failure_of_inquiry.mpr failed)
    cases found : asked.errand with
    | none =>
      simp only [correspond, found]
      exact ⟨sound, .refl _, Effect.aloof_nil⟩
    | some errand =>
      simp only [correspond, found]
      exact ⟨sound_inquiry kept, turns_of_aloof (measured _ errand) rfl rfl rfl rfl rfl rfl,
        measured _ errand⟩

end Task

end HedgedStore
