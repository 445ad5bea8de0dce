import HedgedStore.Hedge.Timeline
import Mathlib.Data.ENat.Lattice

/-! How a race ends. The times at which it is polled come in order, and each time at which an
attempt completes or the delay is over is among them; so nothing that is due is seen late. The
proofs go over these times: first while only the primary is under way, then with both attempts. -/
namespace HedgedStore.Hedge

variable {α : Type}

/-- How long an attempt takes; forever, if it never completes. -/
def Timing.takes (timing : Timing α) : ℕ∞ :=
  match timing.after with
  | some after => after
  | none => ⊤

namespace Run

def endsAt (run : Run α) : ℕ∞ :=
  match run.ended with
  | some now => now
  | none => ⊤

def called? : Action → Option Attempt
  | .call attempt => some attempt
  | _ => none

/-- The attempts that were made, with the times of their calls, the first one first. -/
def calls (run : Run α) : List (Nat × Attempt) :=
  run.actions.reverse.filterMap fun entry => (called? entry.2).map fun attempt => (entry.1, attempt)

def begun : Run α := { phase := .waiting, actions := [(0, .call .primary)] }

end Run

theorem takes_eq_coe {timing : Timing α} {n : ℕ} : timing.takes = n ↔ timing.after = some n := by
  cases h : timing.after <;> simp [Timing.takes, h]

theorem at_eq (timing : Timing α) (start now : Nat) :
    timing.at? start now = if start + timing.takes ≤ now then some timing.result else none := by
  cases h : timing.after with
  | none => simp [Timing.at?, Timing.takes, h]
  | some after =>
    simp only [Timing.at?, Timing.takes, h]
    norm_cast

theorem at_result {timing : Timing α} {start now : Nat} {result : α}
    (done : timing.at? start now = some result) : result = timing.result := by
  unfold Timing.at? at done
  split at done
  · split at done
    · exact (Option.some.inj done).symm
    · cases done
  · cases done

theorem view_eq (delay : Nat) (primary hedge : Timing α) (now : Nat) :
    Run.view delay primary hedge now =
      { primary := if primary.takes ≤ now then some primary.result else none
        hedge := if delay + hedge.takes ≤ now then some hedge.result else none
        elapsed := decide (delay ≤ now) } := by
  simp [Run.view, at_eq]

section Times

variable (delay : Nat) (primary hedge : Timing α) (limit : Option Nat)

theorem dueTimes_sorted : (dueTimes delay primary hedge limit).Pairwise (· ≤ ·) := by
  have transitive : ∀ a b c : Nat, decide (a ≤ b) = true → decide (b ≤ c) = true →
      decide (a ≤ c) = true := fun a b c => by simpa using Nat.le_trans
  have total : ∀ a b : Nat, (decide (a ≤ b) || decide (b ≤ a)) = true :=
    fun a b => by simpa using Nat.le_total a b
  exact (List.pairwise_mergeSort transitive total _).imp of_decide_eq_true

theorem mem_dueTimes {now : Nat} :
    now ∈ dueTimes delay primary hedge limit ↔
      now = 0 ∨ primary.after = some now ∨ now = delay ∨
        (∃ after, hedge.after = some after ∧ delay + after = now) ∨ limit = some now := by
  simp [dueTimes, List.mem_mergeSort, eq_comm]

variable {primary hedge} in
theorem primary_due {n : ℕ} (done : primary.takes = n) :
    n ∈ dueTimes delay primary hedge limit := by
  simp [mem_dueTimes, takes_eq_coe.mp done]

variable {primary hedge} in
theorem hedge_due {n : ℕ} (done : delay + hedge.takes = n) :
    n ∈ dueTimes delay primary hedge limit := by
  cases h : hedge.after with
  | none => simp [Timing.takes, h] at done
  | some after =>
    rw [takes_eq_coe.mpr h] at done
    norm_cast at done
    simp [mem_dueTimes, h, done]

theorem dueTimes_cons : ∃ rest, dueTimes delay primary hedge limit = 0 :: rest := by
  have zero : 0 ∈ dueTimes delay primary hedge limit := by simp [mem_dueTimes]
  have sorted := dueTimes_sorted delay primary hedge limit
  cases h : dueTimes delay primary hedge limit with
  | nil => simp [h] at zero
  | cons first rest =>
    rw [h] at zero sorted
    rcases List.mem_cons.mp zero with rfl | later
    · exact ⟨rest, rfl⟩
    · have := (List.pairwise_cons.mp sorted).1 0 later
      obtain rfl : first = 0 := by omega
      exact ⟨rest, rfl⟩

theorem dueTimes_le {delay now : Nat} {primary hedge : Timing α} {first second : Nat}
    (primary_takes : primary.after = some first)
    (hedge_takes : ∀ after, hedge.after = some after → after ≤ second)
    (due : now ∈ dueTimes delay primary hedge none) : now ≤ max first (delay + second) := by
  rcases (mem_dueTimes delay primary hedge none).mp due with
    rfl | done | rfl | ⟨after, done, rfl⟩ | none_due
  · exact Nat.zero_le _
  · obtain rfl := Option.some.inj (primary_takes.symm.trans done)
    exact Nat.le_max_left _ _
  · exact Nat.le_trans (Nat.le_add_right _ _) (Nat.le_max_right _ _)
  · have bound := hedge_takes after done
    omega
  · cases none_due

end Times

namespace Phase

theorem pollBoth_outcome {view : View α} {outcome : Outcome α}
    (ended : (pollBoth view).1 = .finished outcome) :
    view.primary = some outcome.result ∨ view.hedge = some outcome.result := by
  cases hedge : view.hedge with
  | some result =>
    simp only [pollBoth, hedge] at ended
    obtain rfl := finished.inj ended
    exact .inr rfl
  | none =>
    cases primary : view.primary with
    | some result =>
      simp only [pollBoth, hedge, primary] at ended
      obtain rfl := finished.inj ended
      exact .inl rfl
    | none => simp [pollBoth, hedge, primary] at ended

theorem pollPrimary_outcome {view : View α} {outcome : Outcome α}
    (ended : (pollPrimary view).1 = .finished outcome) :
    view.primary = some outcome.result ∨ view.again = some outcome.result ∨
      view.hedge = some outcome.result := by
  cases primary : view.primary with
  | some result =>
    simp only [pollPrimary, primary] at ended
    obtain rfl := finished.inj ended
    exact .inl rfl
  | none =>
    cases elapsed : view.elapsed with
    | true =>
      simp only [pollPrimary, primary, elapsed, if_true] at ended
      exact .inr (pollBoth_outcome ended)
    | false => simp [pollPrimary, primary, elapsed] at ended

/-- A race that is over has a result that an attempt had when it was polled last. -/
theorem poll_outcome {phase : Phase α} {view : View α} {outcome : Outcome α}
    (ended : (phase.poll view).1 = .finished outcome) :
    phase = .finished outcome ∨ view.primary = some outcome.result ∨
      view.again = some outcome.result ∨ view.hedge = some outcome.result := by
  cases phase with
  | created => exact .inr (pollPrimary_outcome ended)
  | waiting => exact .inr (pollPrimary_outcome ended)
  | hedged => exact .inr ((pollBoth_outcome ended).imp_right .inr)
  | finished => exact .inl ended
  | dropped => cases ended

end Phase

/-! Single polls. -/

section Steps

variable (delay now : Nat) (primary hedge : Timing α)

/-- With both attempts under way the hedge goes first, and nothing is called. -/
theorem pollBoth_view :
    (Phase.pollBoth (Run.view delay primary hedge now)).1 =
      (if delay + hedge.takes ≤ now then .finished ⟨hedge.result, .hedge, true⟩
      else if primary.takes ≤ now then .finished ⟨primary.result, .primary, true⟩
      else .hedged) ∧
    (Phase.pollBoth (Run.view delay primary hedge now)).2.filterMap Run.called? = [] := by
  rw [view_eq]
  by_cases won : delay + hedge.takes ≤ now
  · simp [won, Phase.pollBoth, Run.called?]
  · by_cases first : primary.takes ≤ now <;> simp [won, first, Phase.pollBoth, Run.called?]

/-- The primary goes before the delay, and the end of the delay makes the hedge. -/
theorem pollPrimary_view :
    let view := Run.view delay primary hedge now
    (Phase.pollPrimary view).1 =
      (if primary.takes ≤ now then .finished ⟨primary.result, .primary, false⟩
      else if delay ≤ now then (Phase.pollBoth view).1
      else .waiting) ∧
    (Phase.pollPrimary view).2.filterMap Run.called? =
      if primary.takes ≤ now then [] else if delay ≤ now then [.hedge] else [] := by
  intro view
  have quiet := (pollBoth_view delay now primary hedge).2
  have seen : view = _ := view_eq delay primary hedge now
  by_cases first : primary.takes ≤ now
  · simp [seen, first, Phase.pollPrimary, Run.called?]
  · by_cases past : delay ≤ now
    · have slow : view.primary = none := by simp [seen, first]
      have elapsed : view.elapsed = true := by simp [seen, past]
      simp [Phase.pollPrimary, slow, elapsed, first, past, List.filterMap_cons, Run.called?, quiet,
        view]
    · simp [seen, first, past, Phase.pollPrimary, Run.called?]

variable {run : Run α}

theorem step_of_ended {ended : Nat} (past : run.ended = some ended) :
    Run.step delay primary hedge none run now = run := by
  simp [Run.step, past]

theorem foldl_step_of_ended {ended : Nat} (past : run.ended = some ended) (times : List Nat) :
    times.foldl (Run.step delay primary hedge none) run = run := by
  induction times with
  | nil => rfl
  | cons now times ih => rw [List.foldl_cons, step_of_ended delay now primary hedge past, ih]

theorem step_of_going (going : run.ended = none) :
    let next := Run.step delay primary hedge none run now
    let polled := run.phase.poll (Run.view delay primary hedge now)
    next.phase = polled.1 ∧ next.ended = polled.1.outcome?.map (fun _ => now) ∧
      next.calls = run.calls ++ (polled.2.filterMap Run.called?).map fun attempt =>
        (now, attempt) := by
  intro next polled
  have h : next = { phase := polled.1
                    actions := (polled.2.map fun action => (now, action)).reverse ++ run.actions
                    ended := polled.1.outcome?.map fun _ => now } := by
    simp only [next, Run.step, going, Run.record]
    cases polled.1.outcome? <;> simp [polled]
  rw [h]
  refine ⟨rfl, rfl, ?_⟩
  simp [Run.calls, List.filterMap_map, List.map_filterMap]

end Steps

/-! The whole race. -/

section Fold

variable {delay : Nat} {primary hedge : Timing α}

/-- What the race of two attempts under way comes to: the hedge's result, if it comes no later than
the primary's. -/
def Run.Decided (delay : Nat) (primary hedge : Timing α) (run : Run α) : Prop :=
  run.endsAt = min primary.takes (delay + hedge.takes) ∧
    run.phase =
      if primary.takes = ⊤ ∧ hedge.takes = ⊤ then .hedged
      else if delay + hedge.takes ≤ primary.takes then .finished ⟨hedge.result, .hedge, true⟩
      else .finished ⟨primary.result, .primary, true⟩

theorem first_le_due {now : Nat} {times : List Nat} {due : ℕ∞}
    (sorted : (now :: times).Pairwise (· ≤ ·)) (listed : ∀ n : ℕ, due = n → n ∈ now :: times) :
    (now : ℕ∞) ≤ due := by
  cases due using ENat.recTopCoe with
  | top => exact le_top
  | coe n =>
    rcases List.mem_cons.mp (listed n rfl) with rfl | later
    · exact le_rfl
    · exact_mod_cast (List.pairwise_cons.mp sorted).1 n later

theorem due_later {now : Nat} {times : List Nat} {due : ℕ∞}
    (listed : ∀ n : ℕ, due = n → n ∈ now :: times) (early : ¬ due ≤ now) (n : ℕ) (h : due = n) :
    n ∈ times := by
  rcases List.mem_cons.mp (listed n h) with rfl | later
  · exact absurd h.le early
  · exact later

theorem foldl_hedged {times : List Nat} {run : Run α} (sorted : times.Pairwise (· ≤ ·))
    (primary_listed : ∀ n : ℕ, primary.takes = n → n ∈ times)
    (hedge_listed : ∀ n : ℕ, delay + hedge.takes = n → n ∈ times)
    (going : run.ended = none) (both : run.phase = .hedged) :
    let final := times.foldl (Run.step delay primary hedge none) run
    final.calls = run.calls ∧ final.Decided delay primary hedge := by
  induction times generalizing run with
  | nil =>
    have never : primary.takes = ⊤ := by
      by_contra h
      obtain ⟨n, hn⟩ := ENat.ne_top_iff_exists.mp h
      exact absurd (primary_listed n hn.symm) List.not_mem_nil
    have neither : hedge.takes = ⊤ := by
      by_contra h
      obtain ⟨n, hn⟩ := ENat.ne_top_iff_exists.mp h
      exact absurd (hedge_listed (delay + n) (by rw [← hn]; norm_cast)) List.not_mem_nil
    simp [Run.Decided, Run.endsAt, going, both, never, neither]
  | cons now times ih =>
    have primary_later := first_le_due sorted primary_listed
    have hedge_later := first_le_due sorted hedge_listed
    obtain ⟨phase_next, ended_next, calls_next⟩ :=
      step_of_going delay now primary hedge going
    obtain ⟨phase_polled, quiet⟩ := pollBoth_view delay now primary hedge
    simp only [both, Phase.poll, phase_polled, quiet] at phase_next ended_next calls_next
    rw [List.foldl_cons]
    by_cases won : delay + hedge.takes ≤ now
    · have exact_time : delay + hedge.takes = now := le_antisymm won hedge_later
      simp only [if_pos won, Phase.outcome?, Option.map_some] at phase_next ended_next
      rw [foldl_step_of_ended delay primary hedge ended_next]
      have finite : hedge.takes ≠ ⊤ := by rintro h; simp [h] at exact_time
      refine ⟨by simpa using calls_next, ?_, ?_⟩
      · simp [Run.endsAt, ended_next, exact_time, primary_later]
      · simp [phase_next, finite, exact_time, primary_later]
    · by_cases first : primary.takes ≤ now
      · have exact_time : primary.takes = now := le_antisymm first primary_later
        simp only [if_neg won, if_pos first, Phase.outcome?, Option.map_some] at phase_next ended_next
        rw [foldl_step_of_ended delay primary hedge ended_next]
        refine ⟨by simpa using calls_next, ?_, ?_⟩
        · simp [Run.endsAt, ended_next, exact_time, hedge_later]
        · simp [phase_next, exact_time, won]
      · simp only [if_neg won, if_neg first] at phase_next ended_next
        have rest := ih (List.pairwise_cons.mp sorted).2 (due_later primary_listed first)
          (due_later hedge_listed won) ended_next phase_next
        exact ⟨rest.1.trans (by simpa using calls_next), rest.2⟩

theorem foldl_waiting {times : List Nat} (run : Run α) (sorted : times.Pairwise (· ≤ ·))
    (delay_listed : delay ∈ times) (primary_listed : ∀ n : ℕ, primary.takes = n → n ∈ times)
    (hedge_listed : ∀ n : ℕ, delay + hedge.takes = n → n ∈ times)
    (going : run.ended = none) (alone : run.phase = .waiting) :
    let final := times.foldl (Run.step delay primary hedge none) run
    if primary.takes ≤ delay then
      final.calls = run.calls ∧ final.endsAt = primary.takes ∧
        final.phase = .finished ⟨primary.result, .primary, false⟩
    else
      final.calls = run.calls ++ [(delay, .hedge)] ∧ final.Decided delay primary hedge := by
  induction times generalizing run with
  | nil => cases delay_listed
  | cons now times ih =>
    have primary_later := first_le_due sorted primary_listed
    have hedge_later := first_le_due sorted hedge_listed
    have delay_later : now ≤ delay := by
      rcases List.mem_cons.mp delay_listed with rfl | later
      · exact le_rfl
      · exact (List.pairwise_cons.mp sorted).1 _ later
    obtain ⟨phase_next, ended_next, calls_next⟩ :=
      step_of_going delay now primary hedge going
    obtain ⟨phase_polled, called⟩ := pollPrimary_view delay now primary hedge
    simp only [alone, Phase.poll, phase_polled, called] at phase_next ended_next calls_next
    rw [List.foldl_cons]
    by_cases first : primary.takes ≤ now
    · have exact_time : primary.takes = now := le_antisymm first primary_later
      simp only [if_pos first, Phase.outcome?, Option.map_some] at phase_next ended_next calls_next
      rw [foldl_step_of_ended delay primary hedge ended_next]
      simp [exact_time, delay_later, calls_next, phase_next, Run.endsAt, ended_next]
    · by_cases past : delay ≤ now
      · obtain rfl : now = delay := Nat.le_antisymm delay_later past
        simp only [if_neg first, if_pos past, (pollBoth_view now now primary hedge).1]
          at phase_next ended_next calls_next
        rw [if_neg first]
        by_cases won : now + hedge.takes ≤ now
        · have exact_time : now + hedge.takes = now := le_antisymm won hedge_later
          simp only [if_pos won, Phase.outcome?, Option.map_some] at phase_next ended_next
          rw [foldl_step_of_ended now primary hedge ended_next]
          have finite : hedge.takes ≠ ⊤ := by rintro h; simp [h] at exact_time
          refine ⟨by simpa using calls_next, ?_, ?_⟩
          · simp [Run.endsAt, ended_next, exact_time, primary_later]
          · simp [phase_next, finite, exact_time, primary_later]
        · simp only [if_neg won] at phase_next ended_next
          have rest := foldl_hedged (List.pairwise_cons.mp sorted).2
            (due_later primary_listed first) (due_later hedge_listed won) ended_next phase_next
          exact ⟨rest.1.trans (by simpa using calls_next), rest.2⟩
      · simp only [if_neg first, if_neg past] at phase_next ended_next calls_next
        have delay_left : delay ∈ times := by
          rcases List.mem_cons.mp delay_listed with rfl | later
          · exact absurd le_rfl past
          · exact later
        have early : ¬ delay + hedge.takes ≤ now := fun h =>
          past (by exact_mod_cast le_self_add.trans h)
        have rest := ih _ (List.pairwise_cons.mp sorted).2 delay_left
          (due_later primary_listed first) (due_later hedge_listed early) ended_next phase_next
        simpa [calls_next] using rest

end Fold

section Race

variable (delay : Nat) (primary hedge : Timing α)

theorem race_eq_foldl :
    race delay primary hedge none =
      (dueTimes delay primary hedge none).foldl (Run.step delay primary hedge none) .begun := by
  obtain ⟨rest, h⟩ := dueTimes_cons delay primary hedge none
  rw [race, h, List.foldl_cons, List.foldl_cons]
  congr 1
  simp [Run.step, Run.record, Run.begun, Phase.poll]

/-- A race comes to its primary's result if that is there in time, and otherwise to what its two
attempts come to, the hedge being called when the delay is over. -/
theorem race_settles :
    let final := race delay primary hedge none
    if primary.takes ≤ delay then
      final.calls = [(0, .primary)] ∧ final.endsAt = primary.takes ∧
        final.phase = .finished ⟨primary.result, .primary, false⟩
    else
      final.calls = [(0, .primary), (delay, .hedge)] ∧ final.Decided delay primary hedge := by
  have h := foldl_waiting .begun (dueTimes_sorted delay primary hedge none)
    (by simp [mem_dueTimes]) (fun n hn => primary_due delay none hn)
    (fun n hn => hedge_due delay none hn) rfl rfl
  rw [← race_eq_foldl] at h
  exact h

theorem foldl_step_of_never (primary_never : primary.takes = ⊤) (hedge_never : hedge.takes = ⊤)
    {run : Run α} (going : run.ended = none) (both : run.phase = .hedged) (times : List Nat) :
    (times.foldl (Run.step delay primary hedge none) run).ended = none := by
  induction times generalizing run with
  | nil => exact going
  | cons now times ih =>
    obtain ⟨phase_next, ended_next, _⟩ :=
      step_of_going delay now primary hedge going
    simp only [both, Phase.poll, (pollBoth_view delay now primary hedge).1, primary_never,
      hedge_never, add_top, top_le_iff, ENat.natCast_ne_top, if_false, Phase.outcome?,
      Option.map_none] at phase_next ended_next
    exact ih ended_next phase_next

/-- The outcome of a race for all timings of its attempts. A primary that is there when the delay is
over, or before, is adopted, and no hedge is called. Otherwise the hedge is called exactly then, and
the attempt that completes first is adopted, the hedge if they complete together; the race goes on
for ever only if neither completes. It never ends later than the primary alone would. -/
theorem race_outcome :
    (primary.takes ≤ delay →
      (race delay primary hedge none).calls = [(0, .primary)] ∧
        (race delay primary hedge none).endsAt = primary.takes ∧
        (race delay primary hedge none).phase.outcome? = some ⟨primary.result, .primary, false⟩) ∧
    (delay < primary.takes →
      (race delay primary hedge none).calls = [(0, .primary), (delay, .hedge)] ∧
        (race delay primary hedge none).endsAt = min primary.takes (delay + hedge.takes) ∧
        (hedge.takes ≠ ⊤ → delay + hedge.takes ≤ primary.takes →
          (race delay primary hedge none).phase.outcome? = some ⟨hedge.result, .hedge, true⟩) ∧
        (primary.takes < delay + hedge.takes →
          (race delay primary hedge none).phase.outcome? = some ⟨primary.result, .primary, true⟩) ∧
        (primary.takes = ⊤ → hedge.takes = ⊤ →
          (race delay primary hedge none).phase.outcome? = none ∧
            ∀ times : List Nat,
              (times.foldl (Run.step delay primary hedge none)
                (race delay primary hedge none)).ended = none)) ∧
    (race delay primary hedge none).endsAt ≤ primary.takes := by
  have settled := race_settles delay primary hedge
  by_cases first : primary.takes ≤ delay
  · rw [if_pos first] at settled
    obtain ⟨calls, ends, phase⟩ := settled
    refine ⟨fun _ => ⟨calls, ends, by rw [phase, Phase.outcome?]⟩, fun late => ?_, ends.le⟩
    exact absurd first (not_le_of_gt late)
  · rw [if_neg first] at settled
    obtain ⟨calls, ends, phase⟩ := settled
    refine ⟨fun early => absurd early first, fun _ => ⟨calls, ends, ?_, ?_, ?_⟩, ?_⟩
    · intro finite tied
      rw [phase, if_neg (fun never => finite never.2), if_pos tied, Phase.outcome?]
    · intro ahead
      have finite : primary.takes ≠ ⊤ := ahead.ne_top
      rw [phase, if_neg (fun never => finite never.1), if_neg (not_le_of_gt ahead),
        Phase.outcome?]
    · intro primary_never hedge_never
      rw [if_pos ⟨primary_never, hedge_never⟩] at phase
      have going : (race delay primary hedge none).ended = none := by
        rw [primary_never, hedge_never] at ends
        cases h : (race delay primary hedge none).ended with
        | none => rfl
        | some now => simp [Run.endsAt, h] at ends
      exact ⟨by simp [phase, Phase.outcome?],
        foldl_step_of_never delay primary hedge primary_never hedge_never going phase⟩
    · exact ends.le.trans (min_le_left _ _)

/-- Attempts that complete together: the hedge is adopted. -/
example : (race 75 ⟨some 100, 'p'⟩ ⟨some 25, 'h'⟩ none).phase = .finished ⟨'h', .hedge, true⟩ := by
  cbv

end Race

end HedgedStore.Hedge
