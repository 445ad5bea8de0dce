import HedgedStore.Proofs.Hedge.History
import Mathlib.Data.List.Induction

/-! The life of a race and of its attempts. A race is polled some number of times, each time finding
what it may, and perhaps it is dropped. Whatever it does follows from what it has done before by the
rules of `Lawful`, and when it is over all its attempts are gone.

The rules are about single actions, so a poll keeps them because each of its actions does; the phase
tells what is known of the actions so far. -/
namespace HedgedStore.Hedge

variable {α : Type}

/-- One poll of a race: when it comes, what the attempts would answer to it, and whether the timer
notices that its time is over. Nothing ties the answers to those of other polls. -/
structure Glimpse (α : Type) where
  now : Nat
  primary : Option α
  /-- What the primary would answer behind a hedge that this poll launches. -/
  again : Option α
  hedge : Option α
  fired : Bool

/-- A race, with what has happened in it and when, the first thing first. -/
structure Life (α : Type) where
  phase : Phase α := .created
  /-- When it was polled first; the delay runs from then on. -/
  begun : Option Nat := none
  trace : List (Nat × Action) := []

namespace Life

def record (life : Life α) (now : Nat) (turn : Phase α × List Action) : Life α :=
  { life with phase := turn.1, trace := life.trace ++ turn.2.map fun action => (now, action) }

def start (life : Life α) (now : Nat) : Nat := life.begun.getD now

def view (delay : Nat) (life : Life α) (glimpse : Glimpse α) : View α :=
  { primary := glimpse.primary
    again := glimpse.again
    hedge := glimpse.hedge
    elapsed := glimpse.fired && decide (life.start glimpse.now + delay ≤ glimpse.now) }

def poll (delay : Nat) (life : Life α) (glimpse : Glimpse α) : Life α :=
  { life.record glimpse.now (life.phase.poll (life.view delay glimpse)) with
    begun := some (life.start glimpse.now) }

def drop (life : Life α) (now : Nat) : Life α := life.record now life.phase.drop

def polls (delay : Nat) (glimpses : List (Glimpse α)) : Life α := glimpses.foldl (poll delay) {}

/-- A race that is polled so often, and that is dropped then or not. -/
def run (delay : Nat) (glimpses : List (Glimpse α)) : Option Nat → Life α
  | none => polls delay glimpses
  | some now => (polls delay glimpses).drop now

def actions (life : Life α) : List Action := life.trace.map (·.2)

end Life

/-! The rules. -/

/-- No attempt has completed, let go of anything or been discarded. -/
def Undecided (before : List Action) : Prop :=
  ∀ attempt, .complete attempt ∉ before ∧ .release attempt ∉ before ∧ .discard attempt ∉ before

/-- The attempt was made, and is still on its way. -/
def Alive (attempt : Attempt) (before : List Action) : Prop :=
  .call attempt ∈ before ∧ .complete attempt ∉ before ∧ .release attempt ∉ before ∧
    .discard attempt ∉ before

/-- What may be done in a race where so much has been done. Attempts are made, polled and completed
only while none has completed or gone; each is made once, released once and discarded once. A hedge
is made when the primary has just been polled in vain. An attempt is released when it completes or is
discarded. The hedge is discarded before the primary, and while both are alive it is also released
first. -/
def Lawful (before : List Action) : Action → Prop
  | .call .primary => before = []
  | .call .hedge =>
    Undecided before ∧ Alive .primary before ∧ .call .hedge ∉ before ∧
      [.poll .primary, .countLaunch, .tellLaunch] <:+ before
  | .poll attempt => Undecided before ∧ Alive attempt before
  | .complete attempt => Undecided before ∧ Alive attempt before
  | .release attempt =>
    .call attempt ∈ before ∧ .release attempt ∉ before ∧
      (.complete attempt ∈ before ∨ .discard attempt ∈ before) ∧
      (attempt = .primary → ¬ (Alive .primary before ∧ Alive .hedge before))
  | .discard attempt =>
    .call attempt ∈ before ∧ .discard attempt ∉ before ∧
      (attempt = .primary → .call .hedge ∈ before → .discard .hedge ∈ before)
  | .countLaunch | .countWin | .tellLaunch | .tellWinner _ => True

def Lawfully (before : List Action) : List Action → Prop
  | [] => True
  | action :: actions => Lawful before action ∧ Lawfully (before ++ [action]) actions

theorem lawfully_append {before first second : List Action} :
    Lawfully before (first ++ second) ↔
      Lawfully before first ∧ Lawfully (before ++ first) second := by
  induction first generalizing before with
  | nil => simp [Lawfully]
  | cons action first ih => simp [Lawfully, ih, and_assoc]

theorem lawful_of_split {actions before after : List Action} {action : Action}
    (lawfully : Lawfully [] actions) (split : actions = before ++ action :: after) :
    Lawful before action := by
  rw [split, lawfully_append] at lawfully
  exact lawfully.2.1

/-- What can be done only where it has not been done is done once at most. -/
theorem count_le_one {action : Action} {actions : List Action} (lawfully : Lawfully [] actions)
    (fresh : ∀ before, Lawful before action → action ∉ before) : actions.count action ≤ 1 := by
  induction actions using List.reverseRecOn with
  | nil => exact Nat.zero_le _
  | append_singleton actions last ih =>
    obtain ⟨earlier, lawful, -⟩ := lawfully_append.mp lawfully
    rw [List.count_append]
    by_cases same : last = action
    · subst same
      have none_before := List.count_eq_zero.mpr (fresh _ lawful)
      simp_all
    · have other : [last].count action = 0 := by simp [same]
      have := ih earlier
      omega

/-! One poll. -/

/-- What the actions so far are like when the race is in a phase. -/
def Phase.Follows (actions : List Action) : Phase α → Prop
  | created => actions = []
  | waiting => Undecided actions ∧ .call .primary ∈ actions ∧ .call .hedge ∉ actions
  | hedged => Undecided actions ∧ .call .primary ∈ actions ∧ .call .hedge ∈ actions
  | finished outcome =>
    (∀ attempt, .complete attempt ∈ actions ↔ attempt = outcome.winner) ∧
      ∀ attempt, .call attempt ∈ actions → .release attempt ∈ actions ∧ .discard attempt ∈ actions
  | dropped =>
    (∀ attempt, .complete attempt ∉ actions) ∧
      ∀ attempt, .call attempt ∈ actions → .release attempt ∈ actions ∧ .discard attempt ∈ actions

theorem Attempt.forall_iff {p : Attempt → Prop} :
    (∀ attempt, p attempt) ↔ p .primary ∧ p .hedge :=
  ⟨fun all => ⟨all _, all _⟩, fun both attempt => match attempt with
    | .primary => both.1
    | .hedge => both.2⟩

namespace Phase

variable {actions : List Action}

theorem pollBoth_follows (follows : (hedged : Phase α).Follows actions) (view : View α) :
    Lawfully actions (pollBoth view).2 ∧
      (pollBoth view).1.Follows (actions ++ (pollBoth view).2) := by
  obtain ⟨undecided, primary_made, hedge_made⟩ := follows
  -- the rules ask it of each attempt by name
  have free := undecided
  simp only [Undecided, Attempt.forall_iff] at free
  unfold pollBoth
  split <;> simp [Lawfully, Lawful, Follows, Undecided, Alive, Attempt.forall_iff, *]

theorem pollPrimary_follows (follows : (waiting : Phase α).Follows actions) (view : View α) :
    Lawfully actions (pollPrimary view).2 ∧
      (pollPrimary view).1.Follows (actions ++ (pollPrimary view).2) := by
  -- behind a launch both are polled, as in the phase that the launch leads to
  have launched : (hedged : Phase α).Follows
      (actions ++ [.poll .primary, .countLaunch, .tellLaunch, .call .hedge]) := by
    simpa [Follows, Undecided] using And.intro follows.1 follows.2.1
  obtain ⟨lawfully, after⟩ := pollBoth_follows launched view.onceMore
  obtain ⟨undecided, primary_made, hedge_unmade⟩ := follows
  have free := undecided
  simp only [Undecided, Attempt.forall_iff] at free
  unfold pollPrimary
  split
  · simp [Lawfully, Lawful, Follows, Undecided, Alive, Attempt.forall_iff, *]
  · split
    · rw [List.append_assoc] at after
      refine ⟨lawfully_append.mpr ⟨?_, lawfully⟩, after⟩
      simp [Lawfully, Lawful, Undecided, Alive, Attempt.forall_iff, *]
    · simp [Lawfully, Lawful, Follows, Undecided, Alive, Attempt.forall_iff, *]

theorem poll_follows {phase : Phase α} (follows : phase.Follows actions) (view : View α) :
    Lawfully actions (phase.poll view).2 ∧
      (phase.poll view).1.Follows (actions ++ (phase.poll view).2) := by
  cases phase with
  | created =>
    obtain rfl : actions = [] := follows
    have called : (waiting : Phase α).Follows [.call .primary] := by
      simp [Follows, Undecided]
    obtain ⟨lawfully, after⟩ := pollPrimary_follows called view
    exact ⟨⟨rfl, lawfully⟩, after⟩
  | waiting => exact pollPrimary_follows follows view
  | hedged => exact pollBoth_follows follows view
  | finished outcome => exact ⟨trivial, by simpa [poll] using follows⟩
  | dropped => exact ⟨trivial, by simpa [poll] using follows⟩

theorem drop_follows {phase : Phase α} (follows : phase.Follows actions) :
    Lawfully actions phase.drop.2 ∧ phase.drop.1.Follows (actions ++ phase.drop.2) := by
  cases phase with
  | created =>
    obtain rfl : actions = [] := follows
    simp [drop, Lawfully, Follows]
  | waiting =>
    obtain ⟨undecided, primary_made, hedge_unmade⟩ := follows
    simp only [Undecided, Attempt.forall_iff] at undecided
    simp [drop, Lawfully, Lawful, Follows, Alive, Attempt.forall_iff, *]
  | hedged =>
    obtain ⟨undecided, primary_made, hedge_made⟩ := follows
    simp only [Undecided, Attempt.forall_iff] at undecided
    simp [drop, Lawfully, Lawful, Follows, Alive, Attempt.forall_iff, *]
  | finished outcome => exact ⟨trivial, by simpa [drop] using follows⟩
  | dropped => exact ⟨trivial, by simpa [drop] using follows⟩

theorem elapsed_of_call {phase : Phase α} {view : View α}
    (called : .call .hedge ∈ (phase.poll view).2) : view.elapsed = true := by
  have primary (called : .call .hedge ∈ (pollPrimary view).2) : view.elapsed = true := by
    rcases pollPrimary_counts view with ⟨-, uncalled, -⟩ | ⟨elapsed, -⟩
    · exact absurd called (List.count_eq_zero.mp uncalled)
    · exact elapsed
  cases phase with
  | created => exact primary (by simpa [poll] using called)
  | waiting => exact primary called
  | hedged => exact absurd called (List.count_eq_zero.mp (pollBoth_counts view).2.1)
  | finished outcome => cases called
  | dropped => cases called

theorem Follows.untouched {phase : Phase α} (follows : phase.Follows actions)
    (going : phase.isOver = false) (attempt : Attempt) :
    .release attempt ∉ actions ∧ .discard attempt ∉ actions := by
  cases phase with
  | created => simp_all [Follows]
  | waiting => exact (follows.1 attempt).2
  | hedged => exact (follows.1 attempt).2
  | finished outcome => cases going
  | dropped => cases going

theorem Follows.completed {phase : Phase α} (follows : phase.Follows actions) (attempt : Attempt) :
    .complete attempt ∈ actions ↔
      ∃ outcome, phase = .finished outcome ∧ outcome.winner = attempt := by
  cases phase with
  | created => simp_all [Follows]
  | waiting => simpa using (follows.1 attempt).1
  | hedged => simpa using (follows.1 attempt).1
  | finished outcome => simpa [eq_comm] using follows.1 attempt
  | dropped => simpa using follows.1 attempt

theorem Follows.gone {phase : Phase α} (follows : phase.Follows actions)
    (past : phase.isOver = true) {attempt : Attempt} (made : .call attempt ∈ actions) :
    .release attempt ∈ actions ∧ .discard attempt ∈ actions := by
  cases phase with
  | finished outcome => exact follows.2 attempt made
  | dropped => exact follows.2 attempt made
  | created | waiting | hedged => cases past

end Phase

/-! The whole life. -/

namespace Life

/-- What holds of a race however it has been polled, and when it was dropped. -/
structure Sound (delay : Nat) (life : Life α) : Prop where
  follows : life.phase.Follows life.actions
  lawfully : Lawfully [] life.actions
  opened : ∀ begun, life.begun = some begun → life.trace.head? = some (begun, .call .primary)
  late : ∀ now, (now, .call .hedge) ∈ life.trace →
    ∃ begun, life.begun = some begun ∧ begun + delay ≤ now

variable {delay : Nat} {life : Life α}

theorem record_actions (now : Nat) (turn : Phase α × List Action) :
    (life.record now turn).actions = life.actions ++ turn.2 := by
  simp [record, actions, Function.comp_def]

theorem mem_record {now : Nat} {turn : Phase α × List Action} {entry : Nat × Action} :
    entry ∈ (life.record now turn).trace ↔
      entry ∈ life.trace ∨ entry.1 = now ∧ entry.2 ∈ turn.2 := by
  obtain ⟨time, action⟩ := entry
  simp [record, eq_comm, and_comm]

theorem Sound.poll (sound : life.Sound delay)
    (unpolled : life.begun = none → life.phase = .created) (glimpse : Glimpse α) :
    (life.poll delay glimpse).Sound delay := by
  obtain ⟨lawfully, follows⟩ := Phase.poll_follows sound.follows (life.view delay glimpse)
  have next : (life.poll delay glimpse).actions =
      life.actions ++ (life.phase.poll (life.view delay glimpse)).2 := record_actions _ _
  constructor
  case follows =>
    rw [next]
    exact follows
  case lawfully =>
    rw [next]
    exact lawfully_append.mpr ⟨sound.lawfully, lawfully⟩
  case opened =>
    intro begun started
    cases before : life.begun with
    | none =>
      -- nothing has been done yet, so that the call of the primary comes first
      have created := unpolled before
      have blank : life.trace = [] := by
        have none_done := sound.follows
        rw [created] at none_done
        exact List.map_eq_nil_iff.mp none_done
      obtain rfl : glimpse.now = begun := by simpa [Life.poll, start, before] using started
      simp [Life.poll, record, created, Phase.poll, blank]
    | some first =>
      obtain rfl : first = begun := by simpa [Life.poll, start, before] using started
      simp [Life.poll, record, List.head?_append, sound.opened first before]
  case late =>
    intro now called
    rcases mem_record.mp called with old | ⟨rfl, new⟩
    · obtain ⟨begun, started, past⟩ := sound.late now old
      exact ⟨begun, by simp [Life.poll, start, started], past⟩
    · have elapsed := Phase.elapsed_of_call new
      simp only [view, Bool.and_eq_true, decide_eq_true_eq] at elapsed
      exact ⟨life.start glimpse.now, rfl, elapsed.2⟩

theorem Sound.drop (sound : life.Sound delay) (now : Nat) : (life.drop now).Sound delay := by
  obtain ⟨lawfully, follows⟩ := Phase.drop_follows sound.follows
  have next : (life.drop now).actions = life.actions ++ life.phase.drop.2 := record_actions _ _
  constructor
  case follows =>
    rw [next]
    exact follows
  case lawfully =>
    rw [next]
    exact lawfully_append.mpr ⟨sound.lawfully, lawfully⟩
  case opened =>
    intro begun started
    simp [Life.drop, record, List.head?_append, sound.opened begun started]
  case late =>
    intro now called
    rcases mem_record.mp called with old | ⟨-, new⟩
    · exact sound.late now old
    · exact absurd new (List.count_eq_zero.mp (Phase.drop_counts life.phase).2.1)

theorem sound_polls (delay : Nat) (glimpses : List (Glimpse α)) :
    (polls delay glimpses).Sound delay ∧
      ((polls delay glimpses).begun = none → (polls delay glimpses).phase = .created) := by
  induction glimpses using List.reverseRecOn with
  | nil => exact ⟨⟨rfl, trivial, nofun, nofun⟩, fun _ => rfl⟩
  | append_singleton glimpses glimpse ih =>
    rw [polls, List.foldl_append]
    exact ⟨ih.1.poll ih.2 glimpse, nofun⟩

theorem sound_run (delay : Nat) (glimpses : List (Glimpse α)) (dropped : Option Nat) :
    (run delay glimpses dropped).Sound delay := by
  cases dropped with
  | none => exact (sound_polls delay glimpses).1
  | some now => exact (sound_polls delay glimpses).1.drop now

theorem begun_run (delay : Nat) (first : Glimpse α) (rest : List (Glimpse α))
    (dropped : Option Nat) : (run delay (first :: rest) dropped).begun = some first.now := by
  have begun : (polls delay (first :: rest)).begun = some first.now := by
    induction rest using List.reverseRecOn with
    | nil => rfl
    | append_singleton rest glimpse ih =>
      -- a later poll does not begin it anew
      rw [polls, ← List.cons_append, List.foldl_append]
      exact congrArg some (congrArg (·.getD glimpse.now) ih)
  cases dropped with
  | none => exact begun
  | some now => exact begun

theorem foldl_poll_of_isOver (past : life.phase.isOver = true) (later : List (Glimpse α)) :
    (later.foldl (poll delay) life).trace = life.trace := by
  induction later generalizing life with
  | nil => rfl
  | cons glimpse later ih =>
    have same := Phase.poll_of_isOver past (life.view delay glimpse)
    have still : (life.poll delay glimpse).phase.isOver = true := by
      simpa [poll, record, same] using past
    rw [List.foldl_cons, ih still]
    simp [poll, record, same]

theorem Sound.calls_le_one (sound : life.Sound delay) (attempt : Attempt) :
    life.actions.count (.call attempt) ≤ 1 := by
  refine count_le_one sound.lawfully fun before lawful => ?_
  cases attempt with
  | primary => simp [show before = [] from lawful]
  | hedge => exact lawful.2.2.1

/-- What the rules allow once, for an attempt that was made, and what is done to each of them by the
end, is done as often as attempts were made, and not before the race is over. -/
theorem Sound.count_ending (sound : life.Sound delay) (ending : Attempt → Action)
    (once : ∀ before attempt, Lawful before (ending attempt) →
      .call attempt ∈ before ∧ ending attempt ∉ before)
    (kept : life.phase.isOver = false → ∀ attempt, ending attempt ∉ life.actions)
    (done : life.phase.isOver = true → ∀ attempt, .call attempt ∈ life.actions →
      ending attempt ∈ life.actions) (attempt : Attempt) :
    life.actions.count (ending attempt) =
      if life.phase.isOver then life.actions.count (.call attempt) else 0 := by
  split
  · rename_i past
    by_cases made : .call attempt ∈ life.actions
    · have calls := sound.calls_le_one attempt
      have endings := count_le_one sound.lawfully fun before lawful => (once before attempt lawful).2
      have ended := List.count_pos_iff.mpr (done past attempt made)
      have called := List.count_pos_iff.mpr made
      omega
    · have never : ending attempt ∉ life.actions := by
        intro ended
        obtain ⟨before, after, split⟩ := List.append_of_mem ended
        have called := (once before attempt (lawful_of_split sound.lawfully split)).1
        exact made (split ▸ List.mem_append_left _ called)
      rw [List.count_eq_zero.mpr never, List.count_eq_zero.mpr made]
  · rename_i going
    exact List.count_eq_zero.mpr (kept (Bool.eq_false_iff.mpr going) attempt)

theorem Sound.releases (sound : life.Sound delay) (attempt : Attempt) :
    life.actions.count (.release attempt) =
      if life.phase.isOver then life.actions.count (.call attempt) else 0 :=
  sound.count_ending .release (fun _ _ lawful => ⟨lawful.1, lawful.2.1⟩)
    (fun going other => (sound.follows.untouched going other).1)
    (fun past _ made => (sound.follows.gone past made).1) attempt

theorem Sound.discards (sound : life.Sound delay) (attempt : Attempt) :
    life.actions.count (.discard attempt) =
      if life.phase.isOver then life.actions.count (.call attempt) else 0 :=
  sound.count_ending .discard (fun _ _ lawful => ⟨lawful.1, lawful.2.1⟩)
    (fun going other => (sound.follows.untouched going other).2)
    (fun past _ made => (sound.follows.gone past made).2) attempt

/-- A hedge that was made at all has gone by the time the primary goes. -/
theorem Sound.hedge_first (sound : life.Sound delay) {before after : List Action}
    (split : life.actions = before ++ .discard .primary :: after)
    (made : .call .hedge ∈ life.actions) : .discard .hedge ∈ before := by
  refine (lawful_of_split sound.lawfully split).2.2 rfl ?_
  rw [split, List.mem_append, List.mem_cons] at made
  rcases made with earlier | same | later
  · exact earlier
  · cases same
  · -- no hedge is made any more where the primary has been discarded
    obtain ⟨between, rest, parts⟩ := List.append_of_mem later
    rw [parts, ← List.cons_append, ← List.append_assoc] at split
    have undecided := (lawful_of_split sound.lawfully split).1
    exact absurd (by simp) (undecided .primary).2.2

/-- The attempts of a race that is polled at any times, finding anything, and dropped at any time or
not. The first poll calls the primary before anything else. The hedge is called when the delay is
over. Each action keeps the rules of `Lawful`: an attempt is called once at most, and it is polled
and completes only while it is alive and no other one has ended. The attempt that completes is the
one adopted. When the race is over, as it is once it has been dropped, each attempt that was called
has been released once and discarded once, the hedge before the primary whichever was adopted, and
nothing happens any more. -/
theorem attempts_run_their_course (delay : Nat) (glimpses : List (Glimpse α))
    (dropped : Option Nat) :
    let life := run delay glimpses dropped
    (∀ first rest, glimpses = first :: rest →
      life.begun = some first.now ∧ life.trace.head? = some (first.now, .call .primary)) ∧
    (∀ attempt, life.actions.count (.call attempt) ≤ 1) ∧
    (∀ now, (now, .call .hedge) ∈ life.trace →
      ∃ begun, life.begun = some begun ∧ begun + delay ≤ now) ∧
    (∀ before action after, life.actions = before ++ action :: after → Lawful before action) ∧
    (∀ attempt, .complete attempt ∈ life.actions ↔
      ∃ outcome, life.phase = .finished outcome ∧ outcome.winner = attempt) ∧
    (∀ attempt, life.actions.count (.release attempt) =
      if life.phase.isOver then life.actions.count (.call attempt) else 0) ∧
    (∀ attempt, life.actions.count (.discard attempt) =
      if life.phase.isOver then life.actions.count (.call attempt) else 0) ∧
    (∀ before after, life.actions = before ++ .discard .primary :: after →
      .call .hedge ∈ life.actions → .discard .hedge ∈ before) ∧
    (dropped.isSome = true → life.phase.isOver = true) ∧
    (life.phase.isOver = true →
      ∀ later : List (Glimpse α), (later.foldl (poll delay) life).trace = life.trace) := by
  intro life
  have sound : life.Sound delay := sound_run delay glimpses dropped
  refine ⟨?_, sound.calls_le_one, sound.late, fun before action after split =>
    lawful_of_split sound.lawfully split, sound.follows.completed, sound.releases, sound.discards,
    fun before after split made => sound.hedge_first split made, ?_, foldl_poll_of_isOver⟩
  · rintro first rest rfl
    have begun := begun_run delay first rest dropped
    exact ⟨begun, sound.opened _ begun⟩
  · intro given_up
    cases dropped with
    | none => cases given_up
    | some now => exact (Phase.drop_counts (polls delay glimpses).phase).2.2.2.2

/-- A race that ends with the primary, behind a hedge. -/
example :
    (run 75 [⟨10, none, none, none, true⟩, ⟨90, none, none, none, true⟩,
      ⟨95, some 'p', none, none, true⟩] none).trace =
      [(10, .call .primary), (10, .poll .primary), (90, .poll .primary), (90, .countLaunch),
        (90, .tellLaunch), (90, .call .hedge), (90, .poll .hedge), (90, .poll .primary),
        (95, .poll .hedge), (95, .poll .primary), (95, .complete .primary), (95, .release .primary),
        (95, .tellWinner .primary), (95, .discard .hedge), (95, .release .hedge),
        (95, .discard .primary)] := by decide

end Life

end HedgedStore.Hedge
