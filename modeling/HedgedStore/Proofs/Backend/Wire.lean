import HedgedStore.Proofs.Backend.Session
import HedgedStore.Proofs.Metrics.Requests
import HedgedStore.Store.Stopwatch

/-! Operations that overlap, seen from where their requests go out and come back. Each operation has
a watch of its own, which is set anew for each of its attempts; an attempt is answered once at most,
and only as long as its operation has not turned to another one. Nothing else is assumed of the
order in which attempts begin, are answered, and are lost. -/
namespace HedgedStore

/-- What has come of an attempt. One that was given up is lost, too. -/
inductive Fate
  | awaited
  | answered (status : Nat) (came : Instant)
  | lost
deriving DecidableEq, Repr

structure Attempt where
  operation : Nat
  method : String
  sent : Instant
  fate : Fate := .awaited
deriving DecidableEq, Repr

namespace Attempt

def status? (attempt : Attempt) : Option Nat :=
  match attempt.fate with
  | .answered status _ => some status
  | .awaited | .lost => none

/-- What there is to record of the attempt: its answer, and how long this very attempt took. -/
def receipt? (attempt : Attempt) : Option Receipt :=
  match attempt.fate with
  | .answered status came => some ⟨attempt.method.toLower, status, came, came.since attempt.sent⟩
  | .awaited | .lost => none

end Attempt

def Effect.isAnswer : Effect → Bool
  | measure (.answered _ _ _) => true
  | _ => false

structure Wire (σ : Type) where
  session : Session σ
  watches : Nat → Stopwatch := fun _ => {}
  /-- All attempts, in the order in which they began. -/
  attempts : List Attempt := []
  /-- Which attempt each operation has come to. -/
  latest : Nat → Option Nat := fun _ => none

namespace Wire

open Summary (Fault)
open StoreMetrics (HasRoom Records)

variable {σ : Type}

inductive Event
  | wait (nanos : Nat)
  | start (operation : Nat) (method : String)
  | answer (place status : Nat)
  | lose (place : Nat)
  /-- Something else is measured or told. -/
  | happen (effect : { effect : Effect // effect.isAnswer = false })

/-- The attempt at this place, while its operation waits for it. -/
def awaited? (wire : Wire σ) (place : Nat) : Option Attempt :=
  wire.attempts[place]?.filter fun attempt =>
    attempt.fate == .awaited && wire.latest attempt.operation == some place

def start (wire : Wire σ) (operation : Nat) (method : String) : Wire σ :=
  let now := wire.session.now
  { wire with
    watches := Function.update wire.watches operation
      ((wire.watches operation).start method now)
    attempts := wire.attempts ++ [{ operation, method, sent := now }]
    latest := Function.update wire.latest operation (some wire.attempts.length) }

def answer (wire : Wire σ) (place status : Nat) (attempt : Attempt) : Except Fault (Wire σ) := do
  let now := wire.session.now
  let measured := ((wire.watches attempt.operation).answered? now status).toList
  let effects := measured.map fun measurement => (0, Effect.measure measurement)
  return { wire with
    session := ← effects.foldlM Session.happen wire.session
    attempts := wire.attempts.set place { attempt with fate := .answered status now } }

/-- What comes for an attempt that nobody waits for goes unnoticed. -/
def step (wire : Wire σ) : Event → Except Fault (Wire σ)
  | .wait nanos =>
    .ok { wire with session := { wire.session with now := ⟨wire.session.now.nanos + nanos⟩ } }
  | .start operation method => .ok (wire.start operation method)
  | .answer place status =>
    match wire.awaited? place with
    | some attempt => wire.answer place status attempt
    | none => .ok wire
  | .lose place =>
    match wire.awaited? place with
    | some attempt =>
      .ok { wire with attempts := wire.attempts.set place { attempt with fate := .lost } }
    | none => .ok wire
  | .happen effect => do return { wire with session := ← wire.session.happen (0, effect.1) }

def run (config : StoreConfig) (backend : Backend) (link : Link σ) (store : σ) (start : Instant)
    (events : List Event) : Except Fault (Wire σ) := do
  events.foldlM step { session := ← Session.create config backend link store start }

def answers (wire : Wire σ) (method : String) (status : Nat) : Nat :=
  wire.attempts.countP fun attempt =>
    attempt.method.toLower = method ∧ attempt.status? = some status

/-! What one step changes of the records. -/

variable {wire later : Wire σ} {receipts : List Receipt} {place status : Nat} {attempt : Attempt}

theorem awaited_eq_some (awaited : wire.awaited? place = some attempt) :
    wire.attempts[place]? = some attempt ∧ attempt.fate = .awaited ∧
      wire.latest attempt.operation = some place := by
  obtain ⟨found, waits⟩ := Option.filter_eq_some_iff.mp awaited
  simpa [found] using waits

theorem receipt_eq_none (waits : attempt.fate = .awaited) : attempt.receipt? = none := by
  rw [Attempt.receipt?, waits]

theorem filterMap_set_perm {α β : Type} {f : α → Option β} {as : List α} {a b : α} {c : β}
    (found : as[place]? = some a) (before : f a = none) (after : f b = some c) :
    ((as.set place b).filterMap f).Perm (as.filterMap f ++ [c]) := by
  obtain ⟨inside, rfl⟩ := List.getElem?_eq_some_iff.mp found
  have whole : as = as.take place ++ as[place] :: as.drop (place + 1) := by simp
  have without : as.filterMap f =
      (as.take place).filterMap f ++ (as.drop (place + 1)).filterMap f := by
    conv_lhs => rw [whole, List.filterMap_append, List.filterMap_cons_none before]
  rw [List.set_eq_take_cons_drop _ inside, List.filterMap_append,
    List.filterMap_cons_some after, without]
  exact List.perm_middle.trans (List.perm_append_singleton _ _).symm

theorem filterMap_set_of_none {α β : Type} {f : α → Option β} {as : List α} {a b : α}
    (found : as[place]? = some a) (before : f a = none) (after : f b = none) :
    (as.set place b).filterMap f = as.filterMap f := by
  obtain ⟨inside, rfl⟩ := List.getElem?_eq_some_iff.mp found
  have whole : as = as.take place ++ as[place] :: as.drop (place + 1) := by simp
  conv_rhs => rw [whole, List.filterMap_append, List.filterMap_cons_none before]
  rw [List.set_eq_take_cons_drop _ inside, List.filterMap_append, List.filterMap_cons_none after]

/-- Everything recorded is an answer to an attempt, in the order in which the answers came, and each
watch shows when its operation's latest attempt began. -/
structure Sound (wire : Wire σ) (receipts : List Receipt) : Prop where
  watched : ∀ operation place, wire.latest operation = some place →
    ∃ attempt, wire.attempts[place]? = some attempt ∧ attempt.operation = operation ∧
      wire.watches operation = ⟨some (attempt.method.toLower, attempt.sent)⟩
  perm : receipts.Perm (wire.attempts.filterMap Attempt.receipt?)
  ordered : receipts.Pairwise fun a b => a.came.nanos ≤ b.came.nanos
  past : ∀ receipt ∈ receipts, receipt.came.nanos ≤ wire.session.now.nanos
  records : wire.session.metrics.Records receipts

/-- An attempt whose fate is decided keeps what its operation's watch shows. -/
theorem Sound.watched_set (sound : wire.Sound receipts)
    (found : wire.attempts[place]? = some attempt) (fate : Fate) (operation target : Nat)
    (latest : wire.latest operation = some target) :
    ∃ other, (wire.attempts.set place { attempt with fate })[target]? = some other ∧
      other.operation = operation ∧
        wire.watches operation = ⟨some (other.method.toLower, other.sent)⟩ := by
  obtain ⟨other, there, own, shows⟩ := sound.watched operation target latest
  by_cases same : place = target
  · subst same
    obtain rfl := Option.some.inj (found.symm.trans there)
    have inside := (List.getElem?_eq_some_iff.mp found).1
    exact ⟨_, List.getElem?_set_self inside, own, shows⟩
  · exact ⟨other, (List.getElem?_set_ne same).trans there, own, shows⟩

theorem Sound.start (sound : wire.Sound receipts) (operation : Nat) (method : String) :
    (wire.start operation method).Sound receipts := by
  constructor
  case watched =>
    intro other target latest
    simp only [Wire.start] at latest ⊢
    by_cases own : other = operation
    · subst own
      rw [Function.update_self] at latest ⊢
      obtain rfl := Option.some.inj latest
      exact ⟨_, List.getElem?_concat_length, rfl, rfl⟩
    · rw [Function.update_of_ne own] at latest ⊢
      obtain ⟨attempt, found, rest⟩ := sound.watched other target latest
      have inside := (List.getElem?_eq_some_iff.mp found).1
      exact ⟨attempt, (List.getElem?_append_left inside).trans found, rest⟩
  case perm =>
    have grown : (wire.start operation method).attempts.filterMap Attempt.receipt? =
        wire.attempts.filterMap Attempt.receipt? := by
      rw [Wire.start, List.filterMap_append]
      exact List.append_nil _
    rw [grown]
    exact sound.perm
  case ordered => exact sound.ordered
  case past => exact sound.past
  case records => exact sound.records

theorem Sound.measured (sound : wire.Sound receipts)
    (awaited : wire.awaited? place = some attempt) (status : Nat) :
    (wire.watches attempt.operation).answered? wire.session.now status =
      some (.answered attempt.method.toLower status (wire.session.now.since attempt.sent)) := by
  obtain ⟨found, -, latest⟩ := awaited_eq_some awaited
  obtain ⟨other, there, -, shows⟩ := sound.watched attempt.operation place latest
  obtain rfl := Option.some.inj (found.symm.trans there)
  rw [shows]
  rfl

def receipt (wire : Wire σ) (attempt : Attempt) (status : Nat) : Receipt :=
  ⟨attempt.method.toLower, status, wire.session.now, wire.session.now.since attempt.sent⟩

/-- The label values under which the event is recorded, if it is. -/
def recorded? (wire : Wire σ) : Event → Option (List String)
  | .answer place status =>
    (wire.awaited? place).map fun attempt => [attempt.method.toLower, toString status]
  | .wait _ | .start _ _ | .lose _ | .happen _ => none

/-- What is told by other label values is as it was. -/
def Spares (wire later : Wire σ) (event : Event) : Prop :=
  ∀ values, wire.recorded? event ≠ some values →
    later.session.metrics.requests.find? values = wire.session.metrics.requests.find? values ∧
    later.session.metrics.durations.find? values = wire.session.metrics.durations.find? values

theorem Sound.answer (sound : wire.Sound receipts) (awaited : wire.awaited? place = some attempt)
    (answered : wire.answer place status attempt = .ok later) :
    later.Sound (receipts ++ [wire.receipt attempt status]) ∧
      wire.Spares later (.answer place status) := by
  obtain ⟨found, waits, -⟩ := awaited_eq_some awaited
  rw [Wire.answer, sound.measured awaited] at answered
  obtain ⟨session, happened, answered⟩ := bind_eq_ok.mp answered
  obtain rfl := Except.ok.inj answered
  obtain ⟨next, first, happened⟩ := bind_eq_ok.mp happened
  obtain rfl := Except.ok.inj happened
  obtain ⟨metrics, measured, first⟩ := bind_eq_ok.mp first
  obtain rfl := Except.ok.inj first
  obtain ⟨records, spares⟩ := sound.records.measure (wire.receipt attempt status) measured
  constructor
  · constructor
    case watched => exact sound.watched_set found _
    case perm =>
      have grown := filterMap_set_perm
        (b := { attempt with fate := .answered status wire.session.now })
        found (receipt_eq_none waits) rfl
      exact (sound.perm.append_right _).trans grown.symm
    case ordered =>
      refine List.pairwise_append.mpr ⟨sound.ordered, List.pairwise_singleton _ _, ?_⟩
      intro receipt member last own
      obtain rfl := List.mem_singleton.mp own
      exact sound.past receipt member
    case past =>
      intro receipt member
      rcases List.mem_append.mp member with member | own
      · exact sound.past receipt member
      · obtain rfl := List.mem_singleton.mp own
        exact Nat.le_refl _
    case records => exact records
  · intro values other
    apply spares
    rintro rfl
    exact other (by rw [recorded?, awaited]; rfl)

theorem Sound.lose (sound : wire.Sound receipts) (awaited : wire.awaited? place = some attempt) :
    Sound { wire with attempts := wire.attempts.set place { attempt with fate := .lost } }
      receipts := by
  obtain ⟨found, waits, -⟩ := awaited_eq_some awaited
  constructor
  case watched => exact sound.watched_set found _
  case perm =>
    rw [filterMap_set_of_none found (receipt_eq_none waits) rfl]
    exact sound.perm
  case ordered => exact sound.ordered
  case past => exact sound.past
  case records => exact sound.records

/-- What is no answer is not recorded as one. -/
theorem happen_same {session next : Session σ} {effect : Effect} (other : effect.isAnswer = false)
    (happened : session.happen (0, effect) = .ok next) :
    next.metrics.requests = session.metrics.requests ∧
      next.metrics.durations = session.metrics.durations ∧ next.now = session.now := by
  cases effect with
  | tell event =>
    obtain rfl := Except.ok.inj happened
    exact ⟨rfl, rfl, rfl⟩
  | measure measurement =>
    obtain ⟨metrics, measured, happened⟩ := bind_eq_ok.mp happened
    obtain rfl := Except.ok.inj happened
    cases measurement with
    | answered method status elapsed => cases other
    | uploadSize bytes | compressRatio ratio =>
      obtain ⟨summary, -, measured⟩ := bind_eq_ok.mp measured
      obtain rfl := Except.ok.inj measured
      exact ⟨rfl, rfl, rfl⟩
    | hedgeLaunched | hedgeAdopted =>
      obtain rfl := Except.ok.inj measured
      exact ⟨rfl, rfl, rfl⟩

theorem Sound.step (sound : wire.Sound receipts) {event : Event}
    (stepped : wire.step event = .ok later) :
    (∃ more, later.Sound (receipts ++ more)) ∧ wire.Spares later event := by
  have still : wire.Sound (receipts ++ []) := (List.append_nil receipts).symm ▸ sound
  cases event with
  | wait nanos =>
    obtain rfl := Except.ok.inj stepped
    constructor
    · refine ⟨[], still.watched, still.perm, still.ordered, ?_, still.records⟩
      exact fun receipt member => Nat.le_add_right_of_le (still.past receipt member)
    · exact fun _ _ => ⟨rfl, rfl⟩
  | start operation method =>
    obtain rfl := Except.ok.inj stepped
    exact ⟨⟨[], still.start operation method⟩, fun _ _ => ⟨rfl, rfl⟩⟩
  | answer place status =>
    cases awaited : wire.awaited? place with
    | none =>
      rw [Wire.step, awaited] at stepped
      obtain rfl := Except.ok.inj stepped
      exact ⟨⟨[], still⟩, fun _ _ => ⟨rfl, rfl⟩⟩
    | some attempt =>
      rw [Wire.step, awaited] at stepped
      obtain ⟨after, spares⟩ := sound.answer awaited stepped
      exact ⟨⟨_, after⟩, spares⟩
  | lose place =>
    cases awaited : wire.awaited? place with
    | none =>
      rw [Wire.step, awaited] at stepped
      obtain rfl := Except.ok.inj stepped
      exact ⟨⟨[], still⟩, fun _ _ => ⟨rfl, rfl⟩⟩
    | some attempt =>
      rw [Wire.step, awaited] at stepped
      obtain rfl := Except.ok.inj stepped
      exact ⟨⟨[], still.lose awaited⟩, fun _ _ => ⟨rfl, rfl⟩⟩
  | happen effect =>
    obtain ⟨session, happened, stepped⟩ := bind_eq_ok.mp stepped
    obtain rfl := Except.ok.inj stepped
    obtain ⟨requests, durations, now⟩ := happen_same effect.2 happened
    constructor
    · refine ⟨[], still.watched, still.perm, still.ordered, ?_, ?_⟩
      · exact fun receipt member => now.symm ▸ still.past receipt member
      · exact still.records.of_eq requests durations
    · exact fun values _ => ⟨by rw [requests], by rw [durations]⟩

theorem Sound.steps (sound : wire.Sound receipts) {events : List Event}
    (ran : events.foldlM Wire.step wire = .ok later) : ∃ more, later.Sound (receipts ++ more) := by
  induction events generalizing wire receipts with
  | nil =>
    obtain rfl := Except.ok.inj ran
    exact ⟨[], (List.append_nil receipts).symm ▸ sound⟩
  | cons event events ih =>
    obtain ⟨next, stepped, ran⟩ := bind_eq_ok.mp ran
    obtain ⟨⟨more, sound_next⟩, -⟩ := sound.step stepped
    obtain ⟨rest, sound_later⟩ := ih sound_next ran
    exact ⟨more ++ rest, by rwa [List.append_assoc] at sound_later⟩

theorem sound_idle {config : StoreConfig} {backend : Backend} {link : Link σ} {store : σ}
    {now : Instant} {session : Session σ}
    (opened : Session.create config backend link store now = .ok session) :
    ({ session } : Wire σ).Sound [] := by
  obtain ⟨metrics, created, opened⟩ := bind_eq_ok.mp opened
  obtain rfl := Except.ok.inj opened
  constructor
  case watched => exact fun _ _ latest => absurd latest nofun
  case perm => exact .refl []
  case ordered => exact .nil
  case past => exact fun _ member => absurd member List.not_mem_nil
  case records => exact StoreMetrics.create_records created

/-! Every run comes to its end while the clock can count that far. -/

def Event.nanos : Event → Nat
  | wait nanos => nanos
  | start _ _ | answer _ _ | lose _ | happen _ => 0

def span (events : List Event) : Nat := (events.map Event.nanos).sum

theorem step_returns (regular : wire.session.metrics.Regular) {event : Event}
    (room : HasRoom ⟨wire.session.now.nanos + event.nanos⟩) :
    ∃ later, wire.step event = .ok later ∧ later.session.metrics.Regular ∧
      later.session.now = ⟨wire.session.now.nanos + event.nanos⟩ := by
  cases event with
  | wait nanos => exact ⟨_, rfl, regular, rfl⟩
  | start operation method => exact ⟨_, rfl, regular, rfl⟩
  | answer place status =>
    cases awaited : wire.awaited? place with
    | none => exact ⟨wire, by rw [Wire.step, awaited], regular, rfl⟩
    | some attempt =>
      have atOnce : ∀ effect ∈ ((wire.watches attempt.operation).answered? wire.session.now
          status).toList.map fun measurement => (0, Effect.measure measurement), effect.1 ≤ 0 := by
        intro effect member
        obtain ⟨-, -, rfl⟩ := List.mem_map.mp member
        exact Nat.le_refl 0
      obtain ⟨session, happened, kept⟩ := Session.foldlM_happen_returns regular atOnce room
      obtain ⟨-, -, now⟩ := Session.foldlM_happen_keeps happened
      refine ⟨{ wire with
        session
        attempts := wire.attempts.set place
          { attempt with fate := .answered status wire.session.now } }, ?_, kept, now⟩
      rw [Wire.step, awaited]
      simp only [Wire.answer, happened]
      rfl
  | lose place =>
    cases awaited : wire.awaited? place with
    | none => exact ⟨wire, by rw [Wire.step, awaited], regular, rfl⟩
    | some attempt =>
      exact ⟨{ wire with attempts := wire.attempts.set place { attempt with fate := .lost } },
        by rw [Wire.step, awaited], regular, rfl⟩
  | happen effect =>
    obtain ⟨session, happened, kept⟩ : ∃ next, wire.session.happen (0, effect.1) = .ok next ∧
        next.metrics.Regular := Session.happen_returns regular room
    obtain ⟨-, -, now⟩ := Session.happen_keeps happened
    exact ⟨{ wire with session }, by rw [Wire.step, happened]; rfl, kept, now⟩

theorem steps_return (regular : wire.session.metrics.Regular) {events : List Event}
    (room : HasRoom ⟨wire.session.now.nanos + span events⟩) :
    ∃ later, events.foldlM step wire = .ok later := by
  refine foldlM_returns (P := fun wire events => wire.session.metrics.Regular ∧
    HasRoom ⟨wire.session.now.nanos + span events⟩) ?_ ⟨regular, room⟩
  rintro wire event events ⟨regular, room⟩
  have total : wire.session.now.nanos + span (event :: events) =
      wire.session.now.nanos + event.nanos + span events := by
    rw [span, List.map_cons, List.sum_cons, span, Nat.add_assoc]
  rw [total] at room
  obtain ⟨next, stepped, kept, now⟩ := step_returns regular (room.mono (Nat.le_add_right _ _))
  exact ⟨next, stepped, kept, now ▸ room⟩

/-! What the metrics show of all attempts. -/

structure Recorded (wire : Wire σ) : Prop where
  requests : ∀ method status,
    wire.session.metrics.requests.total [method, toString status] = wire.answers method status
  durations : ∀ method status now shown later,
    wire.session.metrics.durations.snapshot now [method, toString status] = .ok (shown, later) →
      shown.count = wire.answers method status
  readable : ∀ method (status : Nat) now, HasRoom now → ∃ shown later,
    wire.session.metrics.durations.snapshot now [method, toString status] = .ok (shown, later)
  /-- Both families tell of the same label values. -/
  alike : ∀ values, wire.session.metrics.requests.find? values ≠ none ↔
    wire.session.metrics.durations.find? values ≠ none
  /-- The durations are those of the attempts, each from its own beginning to its own answer, as if
  they were observed one after another as the answers came. -/
  timed : ∃ receipts uses, receipts.Perm (wire.attempts.filterMap Attempt.receipt?) ∧
    (receipts.Pairwise fun a b => a.came.nanos ≤ b.came.nanos) ∧
    List.Forall₂ Receipt.IsUse receipts uses ∧
    SummaryVec.run StoreMetrics.durationsForm uses = .ok wire.session.metrics.durations

theorem Sound.countP (sound : wire.Sound receipts) (method : String) (status : Nat) :
    receipts.countP (·.values = [method, toString status]) = wire.answers method status := by
  rw [sound.perm.countP_eq, List.countP_filterMap, answers]
  congr 1
  funext attempt
  obtain ⟨operation, sent_method, sent, fate⟩ := attempt
  cases fate with
  | awaited | lost => simp [Attempt.receipt?, Attempt.status?]
  | answered given came =>
    simp only [Attempt.receipt?, Attempt.status?, Option.map_some, Option.getD_some,
      Receipt.values_eq_iff, Option.some.injEq]

theorem Sound.recorded (sound : wire.Sound receipts) : wire.Recorded := by
  constructor
  case requests =>
    intro method status
    rw [sound.records.totals, sound.countP]
  case durations =>
    intro method status now shown later read
    have fits := sound.records.fits ⟨method, status, now, ⟨0⟩⟩
    rw [SummaryVec.snapshot_count fits read, sound.records.counts]
    exact sound.countP method status
  case readable =>
    intro method status now room
    have form_eq := sound.records.form_eq
    have fits := sound.records.fits ⟨method, status, now, ⟨0⟩⟩
    have slice : wire.session.metrics.durations.form.plan.slice = .ofSeconds 10 := by
      rw [form_eq]
      rfl
    obtain ⟨shown, later, read, -⟩ := SummaryVec.snapshot_timely (room.of_slice slice) fits
    exact ⟨shown, later, read⟩
  case alike =>
    intro values
    exact (sound.records.seen values).trans (sound.records.timed values).symm
  case timed =>
    obtain ⟨uses, noted, ran⟩ := sound.records.uses
    exact ⟨receipts, uses, sound.perm, sound.ordered, noted, ran⟩

/-- However the attempts of however many operations overlap: each answer is recorded once, in both
families, under the method and the status of the attempt that it answers. -/
theorem requests_recorded (config : StoreConfig) (backend : Backend) (link : Link σ) (store : σ)
    (start : Instant) (events : List Event) :
    (HasRoom ⟨start.nanos + span events⟩ →
      ∃ wire, run config backend link store start events = .ok wire) ∧
    ∀ wire, run config backend link store start events = .ok wire →
      wire.Recorded ∧
        ∀ event later, wire.step event = .ok later → wire.Spares later event := by
  constructor
  · intro room
    have room_now : HasRoom start := room.mono (Nat.le_add_right _ _)
    obtain ⟨session, opened⟩ := Session.create_returns room_now config backend link store
    obtain ⟨-, -, -, started, regular⟩ := Session.create_spec opened
    have idle : ({ session } : Wire σ).session.metrics.Regular := regular room_now
    obtain ⟨wire, ran⟩ := steps_return idle (by rw [started]; exact room)
    exact ⟨wire, by rw [run, opened, ok_bind, ran]⟩
  · intro wire ran
    obtain ⟨session, opened, ran⟩ := bind_eq_ok.mp ran
    obtain ⟨receipts, sound⟩ := (sound_idle opened).steps ran
    exact ⟨sound.recorded, fun event later stepped => (sound.step stepped).2⟩

end Wire

end HedgedStore
