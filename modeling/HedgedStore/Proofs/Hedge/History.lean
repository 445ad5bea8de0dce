import HedgedStore.Hedge.Race

/-! What a race has done by the time it is in a phase. A hedge is counted in the poll that calls it,
which only a poll with the delay over does, and a win is counted in the poll that adopts the hedge.
So the phase and the actions so far always tell the same. -/
namespace HedgedStore.Hedge

variable {α : Type}

theorem Tally.countAll_eq (tally : Tally) (actions : List Action) :
    tally.countAll actions =
      ⟨tally.launched + actions.count .countLaunch, tally.won + actions.count .countWin⟩ := by
  induction actions generalizing tally with
  | nil => rfl
  | cons action actions ih =>
    have rest := ih (tally.count action)
    rw [Tally.countAll] at rest
    rw [Tally.countAll, List.foldl_cons, rest, List.count_cons, List.count_cons]
    cases action <;> simp [Tally.count] <;> omega

namespace Phase

/-- The race is over, and the hedge was adopted. -/
def adoptsHedge (phase : Phase α) : Bool := phase.outcome?.any (·.winner == .hedge)

/-- The race is over or was given up. -/
def isOver : Phase α → Bool
  | finished _ | dropped => true
  | _ => false

/-- Both attempts have been called, and the race was not given up. -/
def HasBoth (phase : Phase α) : Prop :=
  phase = hedged ∨ ∃ outcome, phase = finished outcome ∧ outcome.hedged = true

/-! A single poll. -/

theorem pollBoth_counts (view : View α) :
    (pollBoth view).2.count .countLaunch = 0 ∧ (pollBoth view).2.count (.call .hedge) = 0 ∧
      (pollBoth view).2.count .countWin = (if (pollBoth view).1.adoptsHedge then 1 else 0) ∧
      (pollBoth view).1.HasBoth := by
  cases hedge : view.hedge with
  | some result => simp [pollBoth, hedge, adoptsHedge, outcome?, HasBoth]
  | none =>
    cases primary : view.primary with
    | some result => simp [pollBoth, hedge, primary, adoptsHedge, outcome?, HasBoth]
    | none => simp [pollBoth, hedge, primary, adoptsHedge, outcome?, HasBoth]

/-- Either the primary alone is polled, or the delay is over and a hedge is called and counted. -/
theorem pollPrimary_counts (view : View α) :
    ((pollPrimary view).2.count .countLaunch = 0 ∧
        (pollPrimary view).2.count (.call .hedge) = 0 ∧
        (pollPrimary view).2.count .countWin = 0 ∧
        ((pollPrimary view).1 = waiting ∨
          ∃ result, (pollPrimary view).1 = finished ⟨result, .primary, false⟩)) ∨
      (view.elapsed = true ∧ (pollPrimary view).2.count .countLaunch = 1 ∧
        (pollPrimary view).2.count (.call .hedge) = 1 ∧
        (pollPrimary view).2.count .countWin =
          (if (pollPrimary view).1.adoptsHedge then 1 else 0) ∧
        (pollPrimary view).1.HasBoth) := by
  cases primary : view.primary with
  | some result =>
    left
    simp [pollPrimary, primary]
  | none =>
    cases elapsed : view.elapsed with
    | false =>
      left
      simp [pollPrimary, primary, elapsed]
    | true =>
      right
      obtain ⟨launched, called, won, both⟩ := pollBoth_counts view.onceMore
      simp [pollPrimary, primary, elapsed, launched, called, won, both]

/-! The whole history. -/

/-- The actions so far are those of a race that is in the phase. -/
structure Tells (phase : Phase α) (actions : List Action) : Prop where
  matched : actions.count .countLaunch = actions.count (.call .hedge)
  once : actions.count .countLaunch ≤ 1
  alone : phase = created ∨ phase = waiting → actions.count .countLaunch = 0
  both : phase = hedged → actions.count .countLaunch = 1
  won : actions.count .countWin = if phase.adoptsHedge then 1 else 0
  backed : actions.count .countWin ≤ actions.count .countLaunch

variable {phase : Phase α} {actions : List Action}

theorem tells_created : (created : Phase α).Tells [] where
  matched := rfl
  once := Nat.zero_le _
  alone := fun _ => rfl
  both := nofun
  won := rfl
  backed := Nat.le_refl _

theorem tells_of_both (both : phase.HasBoth) (launched : actions.count .countLaunch = 1)
    (called : actions.count (.call .hedge) = 1)
    (won : actions.count .countWin = if phase.adoptsHedge then 1 else 0) :
    phase.Tells actions where
  matched := launched.trans called.symm
  once := Nat.le_of_eq launched
  alone := by
    intro lone
    rcases both with both | ⟨outcome, both, -⟩ <;> rw [both] at lone <;> simp at lone
  both := fun _ => launched
  won := won
  backed := by
    rw [won, launched]
    split <;> omega

/-- A poll with only the primary under way, perhaps with its call in front. -/
theorem Tells.pollPrimary (tells : phase.Tells actions) (lone : phase = created ∨ phase = waiting)
    (call : List Action) (unlaunched : call.count .countLaunch = 0)
    (unhedged : call.count (.call .hedge) = 0) (unwon : call.count .countWin = 0)
    (view : View α) :
    (pollPrimary view).1.Tells (actions ++ (call ++ (pollPrimary view).2)) := by
  have launches := tells.alone lone
  have calls := tells.matched
  have wins := tells.backed
  rcases pollPrimary_counts view with
    ⟨launched, called, won, after⟩ | ⟨-, launched, called, won, both⟩
  · have unadopted : (Phase.pollPrimary view).1.adoptsHedge = false := by
      rcases after with after | ⟨result, after⟩ <;> rw [after] <;> rfl
    refine ⟨?_, ?_, fun _ => ?_, ?_, ?_, ?_⟩
    · simp only [List.count_append]
      omega
    · simp only [List.count_append]
      omega
    · simp only [List.count_append]
      omega
    · intro both
      rcases after with after | ⟨result, after⟩ <;> rw [after] at both <;> cases both
    · simp only [List.count_append, unadopted, Bool.false_eq_true, if_false]
      omega
    · simp only [List.count_append]
      omega
  · refine tells_of_both both ?_ ?_ ?_
    · simp only [List.count_append]
      omega
    · simp only [List.count_append]
      omega
    · simp only [List.count_append]
      omega

theorem Tells.pollBoth (tells : phase.Tells actions) (hedged : phase = hedged) (view : View α) :
    (pollBoth view).1.Tells (actions ++ (pollBoth view).2) := by
  have launches := tells.both hedged
  have calls := tells.matched
  have wins : actions.count .countWin = 0 := by
    rw [tells.won, hedged]
    rfl
  obtain ⟨launched, called, won, both⟩ := pollBoth_counts view
  refine tells_of_both both ?_ ?_ ?_
  · simp only [List.count_append]
    omega
  · simp only [List.count_append]
    omega
  · simp only [List.count_append]
    omega

theorem Tells.poll (tells : phase.Tells actions) (view : View α) :
    (phase.poll view).1.Tells (actions ++ (phase.poll view).2) := by
  cases phase with
  | created => exact tells.pollPrimary (.inl rfl) [.call .primary] rfl rfl rfl view
  | waiting => exact tells.pollPrimary (.inr rfl) [] rfl rfl rfl view
  | hedged => exact tells.pollBoth rfl view
  | finished outcome => simpa [Phase.poll] using tells
  | dropped => simpa [Phase.poll] using tells

theorem drop_counts (phase : Phase α) :
    phase.drop.2.count .countLaunch = 0 ∧ phase.drop.2.count (.call .hedge) = 0 ∧
      phase.drop.2.count .countWin = 0 ∧ phase.drop.1.adoptsHedge = phase.adoptsHedge ∧
      phase.drop.1.isOver = true := by
  cases phase <;> simp [drop, adoptsHedge, outcome?, isOver]

theorem Tells.drop (tells : phase.Tells actions) : phase.drop.1.Tells (actions ++ phase.drop.2) := by
  obtain ⟨launched, called, won, adopted, past⟩ := drop_counts phase
  have same : ∀ action, phase.drop.2.count action = 0 →
      (actions ++ phase.drop.2).count action = actions.count action := by
    intro action none
    rw [List.count_append, none, Nat.add_zero]
  refine ⟨?_, ?_, ?_, ?_, ?_, ?_⟩
  · rw [same _ launched, same _ called, tells.matched]
  · rw [same _ launched]
    exact tells.once
  · rintro (lone | lone) <;> rw [lone] at past <;> cases past
  · intro both
    rw [both] at past
    cases past
  · rw [same _ won, adopted, tells.won]
  · rw [same _ won, same _ launched]
    exact tells.backed

theorem Tells.launches (tells : phase.Tells actions) :
    actions.count .countLaunch = if actions.contains (.call .hedge) then 1 else 0 := by
  have once := tells.once
  have matched := tells.matched
  cases made : actions.contains (.call .hedge) with
  | true =>
    have called : 0 < actions.count (.call .hedge) :=
      List.count_pos_iff.mpr (by simpa using made)
    simp only [if_true]
    omega
  | false =>
    have uncalled : actions.count (.call .hedge) = 0 :=
      List.count_eq_zero.mpr (by simpa using made)
    simp only [Bool.false_eq_true, if_false]
    omega

/-- A poll that counts a hedge finds the delay over. -/
theorem elapsed_of_launch {view : View α}
    (launched : (phase.poll view).2.count .countLaunch ≠ 0) : view.elapsed = true := by
  have primary : (Phase.pollPrimary view).2.count .countLaunch ≠ 0 → view.elapsed = true := by
    intro launched
    rcases pollPrimary_counts view with ⟨none, -⟩ | ⟨elapsed, -⟩
    · exact absurd none launched
    · exact elapsed
  cases phase with
  | created => exact primary (by simpa [poll] using launched)
  | waiting => exact primary launched
  | hedged => exact absurd (pollBoth_counts view).1 launched
  | finished outcome => exact absurd rfl launched
  | dropped => exact absurd rfl launched

theorem isOver_of_outcome (ended : phase.outcome?.isSome = true) : phase.isOver = true := by
  cases phase with
  | finished outcome => rfl
  | created | waiting | hedged | dropped => cases ended

theorem poll_of_isOver (past : phase.isOver = true) (view : View α) :
    phase.poll view = (phase, []) := by
  cases phase with
  | finished outcome => rfl
  | dropped => rfl
  | created | waiting | hedged => cases past

theorem drop_of_isOver (past : phase.isOver = true) : phase.drop = (phase, []) := by
  cases phase with
  | finished outcome => rfl
  | dropped => rfl
  | created | waiting | hedged => cases past

end Phase

end HedgedStore.Hedge
