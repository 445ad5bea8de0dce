import HedgedStore.Proofs.Hedge.History
import Mathlib.Data.List.Count

/-! Many races that count into one tally. The races go on in any order, each of them from one point
where it waits to the next, or it is given up there. What the attempts would answer, and how late
the timer is, differs from poll to poll; the timer is never early. Counting is the only thing that
the races share, so the tally is what the history of each race makes it. -/
namespace HedgedStore.Hedge

variable {α : Type}

structure Race (α : Type) where
  phase : Phase α := .created
  /-- When it was polled first; the delay runs from then on. -/
  begun : Option Nat := none
  /-- When it returned or was given up. -/
  ended : Option Nat := none
  /-- What it has done so far, in order. -/
  actions : List Action := []

namespace Race

def record (race : Race α) (now : Nat) (turn : Phase α × List Action) : Race α :=
  { race with
    phase := turn.1
    ended := race.ended.or (if turn.1.isOver then some now else none)
    actions := race.actions ++ turn.2 }

def start (race : Race α) (now : Nat) : Nat := race.begun.getD now

def view (delay now : Nat) (race : Race α) (primary hedge : Option α) (fired : Bool) : View α :=
  { primary, hedge, elapsed := fired && decide (race.start now + delay ≤ now) }

def poll (delay now : Nat) (race : Race α) (primary hedge : Option α) (fired : Bool) :
    Race α × List Action :=
  let turn := race.phase.poll (race.view delay now primary hedge fired)
  ({ race.record now turn with begun := some (race.start now) }, turn.2)

def drop (now : Nat) (race : Race α) : Race α × List Action :=
  (race.record now race.phase.drop, race.phase.drop.2)

def madeHedge (race : Race α) : Bool := race.actions.contains (.call .hedge)

def returnedHedge (race : Race α) : Bool := race.phase.adoptsHedge

def added (race : Race α) : Tally := Tally.countAll {} race.actions

/-- The race returned, or was given up, before its delay was over. -/
def EndedEarly (delay : Nat) (race : Race α) : Prop :=
  ∃ ended, race.ended = some ended ∧ ∀ begun, race.begun = some begun → ended < begun + delay

end Race

structure Races (α : Type) where
  now : Nat := 0
  list : List (Race α) := []
  tally : Tally := {}

namespace Races

inductive Event (α : Type) where
  /-- One more race is asked for. -/
  | enter
  | wait (nanos : Nat)
  | poll (place : Nat) (primary hedge : Option α) (fired : Bool)
  | drop (place : Nat)

def move (races : Races α) (place : Nat) (turn : Race α → Race α × List Action) : Races α :=
  match races.list[place]? with
  | some race => { races with
      list := races.list.set place (turn race).1
      tally := races.tally.countAll (turn race).2 }
  | none => races

def step (delay : Nat) (races : Races α) : Event α → Races α
  | .enter => { races with list := races.list ++ [{}] }
  | .wait nanos => { races with now := races.now + nanos }
  | .poll place primary hedge fired =>
    races.move place fun race => race.poll delay races.now primary hedge fired
  | .drop place => races.move place fun race => race.drop races.now

def run (delay : Nat) (events : List (Event α)) : Races α := events.foldl (step delay) {}

end Races

/-! One race. -/

structure Race.Sound (delay now : Nat) (race : Race α) : Prop where
  tells : race.phase.Tells race.actions
  past : race.ended.isSome = race.phase.isOver
  /-- No hedge was counted before the delay was over. -/
  paced : race.actions.count .countLaunch ≠ 0 →
    ∃ begun, race.begun = some begun ∧ begun + delay ≤ race.ended.getD now

namespace Race.Sound

variable {delay now : Nat} {race : Race α}

theorem created : ({} : Race α).Sound delay now where
  tells := Phase.tells_created
  past := rfl
  paced := fun launched => absurd rfl launched

theorem later (sound : race.Sound delay now) {next : Nat} (after : now ≤ next) :
    race.Sound delay next where
  tells := sound.tells
  past := sound.past
  paced := by
    intro launched
    obtain ⟨begun, started, elapsed⟩ := sound.paced launched
    refine ⟨begun, started, Nat.le_trans elapsed ?_⟩
    cases race.ended with
    | none => exact after
    | some ended => exact Nat.le_refl _

theorem record_same (sound : race.Sound delay now) (past : race.phase.isOver = true) :
    race.record now (race.phase, []) = race := by
  obtain ⟨phase, begun, ended, actions⟩ := race
  obtain ⟨last, rfl⟩ := Option.isSome_iff_exists.mp (sound.past.trans past)
  simp [record]

theorem poll (sound : race.Sound delay now) (primary hedge : Option α) (fired : Bool) :
    (race.poll delay now primary hedge fired).1.Sound delay now := by
  let view := race.view delay now primary hedge fired
  have tells := sound.tells.poll view
  -- A race that is over is left as it is; any other one that counts a hedge now is late enough.
  by_cases past : race.phase.isOver = true
  · have same := Phase.poll_of_isOver past view
    have polled : race.poll delay now primary hedge fired =
        ({ race with begun := some (race.start now) }, []) := by
      simp only [Race.poll]
      rw [show race.phase.poll (race.view delay now primary hedge fired) = _ from same,
        sound.record_same past]
    rw [polled]
    refine ⟨sound.tells, sound.past, ?_⟩
    intro launched
    obtain ⟨begun, started, elapsed⟩ := sound.paced launched
    exact ⟨begun, by simp [start, started], elapsed⟩
  · have going : race.ended = none := by
      have none_ended := sound.past
      rw [Bool.not_eq_true] at past
      rw [past] at none_ended
      simpa using none_ended
    have ended : (race.poll delay now primary hedge fired).1.ended.getD now = now := by
      simp only [Race.poll, record, going, Option.none_or]
      split <;> rfl
    refine ⟨tells, ?_, ?_⟩
    · simp only [Race.poll, record, going, Option.none_or]
      split <;> simp_all
    · intro launched
      rw [ended]
      refine ⟨race.start now, rfl, ?_⟩
      by_cases now_launched : (race.phase.poll view).2.count .countLaunch = 0
      · have before : race.actions.count .countLaunch ≠ 0 := by
          simpa [Race.poll, record, view, now_launched] using launched
        obtain ⟨begun, started, elapsed⟩ := sound.paced before
        simpa [start, started, going] using elapsed
      · have elapsed := Phase.elapsed_of_launch now_launched
        simp only [view, Race.view, Bool.and_eq_true, decide_eq_true_eq] at elapsed
        exact elapsed.2

theorem drop (sound : race.Sound delay now) : (race.drop now).1.Sound delay now := by
  obtain ⟨unlaunched, -, -, -, past⟩ := Phase.drop_counts race.phase
  refine ⟨sound.tells.drop, ?_, ?_⟩
  · simp [Race.drop, record, past]
  · intro launched
    have before : race.actions.count .countLaunch ≠ 0 := by
      simpa [Race.drop, record, unlaunched] using launched
    obtain ⟨begun, started, elapsed⟩ := sound.paced before
    refine ⟨begun, started, ?_⟩
    cases ended : race.ended with
    | none => simpa [Race.drop, record, past, ended] using elapsed
    | some last => simpa [Race.drop, record, ended] using elapsed

/-! What a race adds, each way one at most. -/

theorem launches (sound : race.Sound delay now) :
    race.actions.count .countLaunch = if race.madeHedge then 1 else 0 :=
  sound.tells.launches

theorem wins (sound : race.Sound delay now) :
    race.actions.count .countWin = if race.returnedHedge then 1 else 0 :=
  sound.tells.won

theorem added_eq (sound : race.Sound delay now) :
    race.added = ⟨if race.madeHedge then 1 else 0, if race.returnedHedge then 1 else 0⟩ := by
  rw [added, Tally.countAll_eq, sound.launches, sound.wins]
  simp

theorem made_of_returned (sound : race.Sound delay now) (returned : race.returnedHedge = true) :
    race.madeHedge = true := by
  have backed := sound.tells.backed
  rw [sound.launches, sound.wins, returned] at backed
  cases made : race.madeHedge with
  | true => rfl
  | false => simp [made] at backed

theorem added_nothing (sound : race.Sound delay now) (early : race.EndedEarly delay) :
    race.added = {} := by
  obtain ⟨ended, past, before⟩ := early
  have unlaunched : race.actions.count .countLaunch = 0 := by
    by_contra launched
    obtain ⟨begun, started, elapsed⟩ := sound.paced launched
    have late := before begun started
    rw [past, Option.getD_some] at elapsed
    omega
  have unwon : race.actions.count .countWin = 0 := by
    have backed := sound.tells.backed
    omega
  rw [added, Tally.countAll_eq, unlaunched, unwon]

end Race.Sound

/-! All races. -/

namespace Races

structure Sound (delay : Nat) (races : Races α) : Prop where
  each : ∀ race ∈ races.list, race.Sound delay races.now
  launched : races.tally.launched = races.list.countP Race.madeHedge
  won : races.tally.won = races.list.countP Race.returnedHedge

theorem countP_set_add {β : Type} (test : β → Bool) {list : List β} {place : Nat} {old : β} (new : β)
    (found : list[place]? = some old) :
    (list.set place new).countP test + (if test old then 1 else 0) =
      list.countP test + (if test new then 1 else 0) := by
  obtain ⟨bound, rfl⟩ := List.getElem?_eq_some_iff.mp found
  rw [List.countP_set bound]
  have counted : (if test list[place] then 1 else 0) ≤ list.countP test := by
    split
    · rename_i holds
      exact List.countP_pos_iff.mpr ⟨_, List.getElem_mem bound, holds⟩
    · exact Nat.zero_le _
  omega

/-- A move of one race keeps the tally right if it counts what the race does. -/
theorem Sound.move {delay : Nat} {races : Races α} (sound : races.Sound delay) (place : Nat)
    {turn : Race α → Race α × List Action}
    (keeps : ∀ race ∈ races.list, (turn race).1.Sound delay races.now)
    (counted : ∀ race, (turn race).1.actions = race.actions ++ (turn race).2) :
    (races.move place turn).Sound delay := by
  unfold Races.move
  split
  · rename_i race found
    have member := List.mem_of_getElem? found
    have before := sound.each race member
    have after := keeps race member
    refine ⟨?_, ?_, ?_⟩
    · intro other there
      rcases List.mem_or_eq_of_mem_set there with old | rfl
      · exact sound.each other old
      · exact after
    · have sum := countP_set_add Race.madeHedge (turn race).1 found
      have launches := after.launches
      rw [counted, List.count_append, before.launches] at launches
      rw [Tally.countAll_eq]
      simp only [sound.launched]
      omega
    · have sum := countP_set_add Race.returnedHedge (turn race).1 found
      have wins := after.wins
      rw [counted, List.count_append, before.wins] at wins
      rw [Tally.countAll_eq]
      simp only [sound.won]
      omega
  · exact sound

theorem Sound.step {delay : Nat} {races : Races α} (sound : races.Sound delay) (event : Event α) :
    (races.step delay event).Sound delay := by
  cases event with
  | enter =>
    refine ⟨?_, ?_, ?_⟩
    · intro race member
      rcases List.mem_append.mp member with old | new
      · exact sound.each race old
      · exact List.mem_singleton.mp new ▸ .created
    · simp [Races.step, sound.launched, Race.madeHedge]
    · simp [Races.step, sound.won, Race.returnedHedge, Phase.adoptsHedge, Phase.outcome?]
  | wait nanos =>
    refine ⟨?_, sound.launched, sound.won⟩
    intro race member
    exact (sound.each race member).later (Nat.le_add_right _ _)
  | poll place primary hedge fired =>
    exact sound.move place (fun race member => (sound.each race member).poll primary hedge fired)
      fun race => rfl
  | drop place =>
    exact sound.move place (fun race member => (sound.each race member).drop) fun race => rfl

theorem Sound.foldl {delay : Nat} {races : Races α} (sound : races.Sound delay)
    (events : List (Event α)) : (events.foldl (Races.step delay) races).Sound delay := by
  induction events generalizing races with
  | nil => exact sound
  | cons event events ih => exact ih (sound.step event)

theorem sound_run (delay : Nat) (events : List (Event α)) : (run delay events).Sound delay :=
  Sound.foldl ⟨fun _ member => absurd member List.not_mem_nil, rfl, rfl⟩ events

/-! The tally only grows. -/

theorem tally_le_step (delay : Nat) (races : Races α) (event : Event α) :
    races.tally.launched ≤ (races.step delay event).tally.launched ∧
      races.tally.won ≤ (races.step delay event).tally.won := by
  have moved : ∀ place turn, races.tally.launched ≤ (races.move place turn).tally.launched ∧
      races.tally.won ≤ (races.move place turn).tally.won := by
    intro place turn
    unfold Races.move
    split
    · rw [Tally.countAll_eq]
      exact ⟨Nat.le_add_right _ _, Nat.le_add_right _ _⟩
    · exact ⟨Nat.le_refl _, Nat.le_refl _⟩
  cases event with
  | enter => exact ⟨Nat.le_refl _, Nat.le_refl _⟩
  | wait nanos => exact ⟨Nat.le_refl _, Nat.le_refl _⟩
  | poll place primary hedge fired => exact moved place _
  | drop place => exact moved place _

theorem tally_le_foldl (delay : Nat) (races : Races α) (events : List (Event α)) :
    races.tally.launched ≤ (events.foldl (step delay) races).tally.launched ∧
      races.tally.won ≤ (events.foldl (step delay) races).tally.won := by
  induction events generalizing races with
  | nil => exact ⟨Nat.le_refl _, Nat.le_refl _⟩
  | cons event events ih =>
    have first := tally_le_step delay races event
    have rest := ih (races.step delay event)
    exact ⟨Nat.le_trans first.1 rest.1, Nat.le_trans first.2 rest.2⟩

theorem foldl_added {delay now : Nat} {list : List (Race α)}
    (sound : ∀ race ∈ list, race.Sound delay now) (tally : Tally) :
    list.foldl (fun tally race => tally.countAll race.actions) tally =
      ⟨tally.launched + list.countP Race.madeHedge, tally.won + list.countP Race.returnedHedge⟩ := by
  induction list generalizing tally with
  | nil => rfl
  | cons race list ih =>
    have first := sound race (by simp)
    rw [List.foldl_cons, ih fun other member => sound other (by simp [member]), Tally.countAll_eq,
      first.launches, first.wins, List.countP_cons, List.countP_cons]
    simp only [Tally.mk.injEq]
    omega

/-- At every moment the tally is what all the races have added: as many launches as races have made
a hedge, and as many wins as races have returned one. No race adds more than one of each, and one
that ends before its delay is over adds nothing; no count ever decreases. -/
theorem hedges_accounted (delay : Nat) (events : List (Event α)) :
    (run delay events).tally.launched = (run delay events).list.countP Race.madeHedge ∧
    (run delay events).tally.won = (run delay events).list.countP Race.returnedHedge ∧
    (run delay events).tally.won ≤ (run delay events).tally.launched ∧
    (run delay events).tally =
      (run delay events).list.foldl (fun tally race => tally.countAll race.actions) {} ∧
    (∀ race ∈ (run delay events).list, race.added.launched ≤ 1 ∧ race.added.won ≤ 1 ∧
      (race.EndedEarly delay → race.added = {})) ∧
    ∀ later, (run delay events).tally.launched ≤ (run delay (events ++ later)).tally.launched ∧
      (run delay events).tally.won ≤ (run delay (events ++ later)).tally.won := by
  have sound := sound_run delay events
  refine ⟨sound.launched, sound.won, ?_, ?_, ?_, ?_⟩
  · rw [sound.launched, sound.won]
    exact List.countP_mono_left fun race member returned =>
      (sound.each race member).made_of_returned returned
  · rw [foldl_added sound.each, Nat.zero_add, Nat.zero_add, ← sound.launched, ← sound.won]
  · intro race member
    have each := sound.each race member
    rw [each.added_eq]
    refine ⟨?_, ?_, ?_⟩
    · dsimp only
      split <;> omega
    · dsimp only
      split <;> omega
    · intro early
      rw [← each.added_eq]
      exact each.added_nothing early
  · intro later
    rw [run, run, List.foldl_append]
    exact tally_le_foldl delay _ later

/-- One race adopts its hedge, and another one is given up before its delay is over. -/
example : (run 75 [.enter, .enter, .poll 0 none none true, .poll 1 none none true, .drop 1,
    .wait 75, .poll 0 none (some 'h') true]).tally = ⟨1, 1⟩ := by decide

end Races

end HedgedStore.Hedge
