import HedgedStore.Proofs.Steps
import HedgedStore.Summary.Basic

/-! What moving a window on comes to: nothing, a fresh start, or so many turns of a slice each. It
changes neither the count nor the sum, which the observations alone make up. -/
namespace HedgedStore.Summary

namespace Window

variable {plan : Plan} {window next : Window} {now : Instant}

inductive Turned (plan : Plan) (window : Window) (now : Instant) : Window → Prop
  | still (early : now.nanos < window.deadline.nanos) : Turned plan window now window
  | afresh (idle : window.deadline.nanos + plan.slice.nanos * plan.slices ≤ now.nanos) :
      Turned plan window now { window with
        slices := renew plan plan.slices window.slices
        deadline := ⟨now.nanos + plan.slice.nanos⟩ }
  | onward (turns : Nat) (first : 1 ≤ turns) (within : turns ≤ plan.slices)
      (due : window.deadline.nanos + plan.slice.nanos * (turns - 1) ≤ now.nanos)
      (ahead : now.nanos < window.deadline.nanos + plan.slice.nanos * turns) :
      Turned plan window now { window with
        slices := renew plan turns window.slices
        deadline := ⟨window.deadline.nanos + plan.slice.nanos * turns⟩ }

theorem after_eq_some {t later : Instant} {d : Duration} (h : t.after? d = some later) :
    later = ⟨t.nanos + d.nanos⟩ := by
  unfold Instant.after? at h
  split at h
  · exact (Option.some.inj h).symm
  · cases h

/-- Moving on fails only where there is a new deadline that the clock cannot count to. -/
theorem rotate_eq (plan : Plan) (window : Window) (now : Instant) :
    ∃ next, Turned plan window now next ∧ window.rotate plan now =
      if now.nanos < window.deadline.nanos ∨ next.deadline.nanos < Instant.limit then some next
      else none := by
  unfold rotate
  split
  · rename_i early
    exact ⟨window, .still early, (if_pos (.inl early)).symm⟩
  · rename_i late
    dsimp only
    split
    · rename_i idle
      refine ⟨_, .afresh ?_, ?_⟩
      · simp only [Instant.since] at idle
        omega
      · simp only [late, false_or, Instant.after?]
        split <;> rfl
    · rename_i busy
      simp only [Instant.since] at busy ⊢
      generalize lag : now.nanos - window.deadline.nanos = behind at busy
      have positive : 0 < plan.slice.nanos := by
        refine Nat.pos_of_ne_zero fun nothing => busy ?_
        rw [nothing, Nat.zero_mul]
        exact Nat.zero_le behind
      have passed : plan.slice.nanos * (behind / plan.slice.nanos) ≤ behind :=
        Nat.mul_div_le behind plan.slice.nanos
      have short : behind < plan.slice.nanos * (behind / plan.slice.nanos + 1) :=
        Nat.lt_mul_div_succ behind positive
      have few : behind / plan.slice.nanos < plan.slices :=
        Nat.div_lt_of_lt_mul (Nat.lt_of_not_ge busy)
      refine ⟨_, .onward (behind / plan.slice.nanos + 1) (Nat.le_add_left 1 _) few ?_ ?_, ?_⟩
      · simp only [Nat.add_sub_cancel]
        omega
      · omega
      · simp only [late, false_or, Instant.after?]
        split <;> rfl

theorem turned (rotated : window.rotate plan now = some next) : Turned plan window now next := by
  obtain ⟨target, turns, rotates⟩ := rotate_eq plan window now
  rw [rotates] at rotated
  split at rotated
  · obtain rfl := Option.some.inj rotated
    exact turns
  · cases rotated

theorem rotate_of_early (early : now.nanos < window.deadline.nanos) :
    window.rotate plan now = some window :=
  if_pos early

theorem renew_length (turns : Nat) {slices : List Reservoir} (width : slices.length = plan.slices) :
    (renew plan turns slices).length = plan.slices := by
  simp [renew, width]

/-- The newest slices are empty, and the others have moved on by as many places. -/
theorem getElem?_renew {turns place : Nat} {slices : List Reservoir} (inside : place < plan.slices) :
    (renew plan turns slices)[place]? =
      if place < turns then some .empty else slices[place - turns]? := by
  rw [renew, List.getElem?_take_of_lt inside]
  split
  · rename_i fresh
    rw [List.getElem?_append_left (by simpa using fresh)]
    simp [fresh]
  · rename_i old
    rw [List.getElem?_append_right (by simpa using old), List.length_replicate]

/-- Turns enough for the whole window leave nothing of it. -/
theorem renew_all {turns : Nat} (enough : plan.slices ≤ turns) (slices : List Reservoir) :
    renew plan turns slices = List.replicate plan.slices .empty := by
  rw [renew, List.take_append_of_le_length (by simpa using enough), List.take_replicate,
    Nat.min_eq_left enough]

/-- The window is as wide as planned, and its deadline comes next. -/
structure InStep (plan : Plan) (window : Window) (now : Instant) : Prop where
  width : window.slices.length = plan.slices
  ahead : 0 < plan.slice.nanos → now.nanos < window.deadline.nanos
  near : window.deadline.nanos ≤ now.nanos + plan.slice.nanos

theorem InStep.create (created : Window.create plan now = some window) :
    window.InStep plan now := by
  obtain ⟨deadline, counted, created⟩ := Option.bind_eq_some_iff.mp created
  obtain rfl := Option.some.inj created
  obtain rfl := after_eq_some counted
  exact ⟨List.length_replicate, Nat.lt_add_of_pos_right, Nat.le_refl _⟩

theorem Turned.inStep (turned : Turned plan window now next)
    (width : window.slices.length = plan.slices)
    (near : window.deadline.nanos ≤ now.nanos + plan.slice.nanos) : next.InStep plan now := by
  cases turned with
  | still early => exact ⟨width, fun _ => early, near⟩
  | afresh idle => exact ⟨renew_length _ width, Nat.lt_add_of_pos_right, Nat.le_refl _⟩
  | onward turns first within due ahead =>
    refine ⟨renew_length _ width, fun _ => ahead, ?_⟩
    obtain ⟨turns, rfl⟩ := Nat.exists_eq_add_of_le' first
    rw [Nat.add_sub_cancel] at due
    simp only [Nat.mul_succ]
    omega

theorem InStep.rotate {last : Instant} (kept : window.InStep plan last)
    (le : last.nanos ≤ now.nanos) (rotated : window.rotate plan now = some next) :
    next.InStep plan now :=
  (turned rotated).inStep kept.width (Nat.le_trans kept.near (Nat.add_le_add_right le _))

theorem InStep.store (kept : window.InStep plan now) (word : Nat) (x : Binary64) :
    (window.store plan word x).InStep plan now := by
  obtain ⟨slices, deadline, count, sum⟩ := window
  cases slices <;> exact ⟨kept.width, kept.ahead, kept.near⟩

/-! The count and the sum. -/

theorem rotate_totals (rotated : window.rotate plan now = some next) :
    next.count = window.count ∧ next.sum = window.sum := by
  cases turned rotated <;> exact ⟨rfl, rfl⟩

theorem store_totals (plan : Plan) (word : Nat) (x : Binary64) (window : Window) :
    (window.store plan word x).count = window.count + 1 ∧
      (window.store plan word x).sum = window.sum.add x ∧
      (window.store plan word x).deadline = window.deadline := by
  obtain ⟨slices, deadline, count, sum⟩ := window
  cases slices <;> exact ⟨rfl, rfl, rfl⟩

theorem create_totals (created : Window.create plan now = some window) :
    window.count = 0 ∧ window.sum = .zero := by
  obtain ⟨deadline, -, created⟩ := Option.bind_eq_some_iff.mp created
  obtain rfl := Option.some.inj created
  exact ⟨rfl, rfl⟩

end Window

theorem timely_eq_ok {α : Type} {step : Option α} {a : α} : timely step = .ok a ↔ step = some a := by
  cases step <;> simp [timely]

variable {form : Form} {now : Instant} {summary later : Summary} {shown : Snapshot}

theorem create_eq_ok (created : Summary.create form now = .ok summary) :
    summary.form = form ∧ Window.create form.plan now = some summary.window := by
  obtain ⟨window, made, created⟩ := bind_eq_ok.mp created
  obtain rfl := Except.ok.inj created
  exact ⟨rfl, timely_eq_ok.mp made⟩

theorem observe_eq_ok {word : Nat} {x : Binary64}
    (observed : summary.observe now word x = .ok later) :
    later.form = summary.form ∧ ∃ turned, summary.window.rotate summary.form.plan now = some turned ∧
      later.window = turned.store summary.form.plan word x := by
  obtain ⟨window, moved, observed⟩ := bind_eq_ok.mp observed
  obtain rfl := Except.ok.inj observed
  obtain ⟨turned, rotated, stored⟩ := Option.map_eq_some_iff.mp (timely_eq_ok.mp moved)
  exact ⟨rfl, turned, rotated, stored.symm⟩

theorem snapshot_eq_ok (read : summary.snapshot now = .ok (shown, later)) :
    later.form = summary.form ∧
      summary.window.rotate summary.form.plan now = some later.window ∧
      shown = later.window.read summary.form.plan := by
  obtain ⟨⟨seen, window⟩, moved, read⟩ := bind_eq_ok.mp read
  obtain ⟨rfl, rfl⟩ := Prod.mk.inj (Except.ok.inj read)
  obtain ⟨turned, rotated, same⟩ := Option.map_eq_some_iff.mp (timely_eq_ok.mp moved)
  obtain ⟨rfl, rfl⟩ := Prod.mk.inj same
  exact ⟨rfl, rotated, rfl⟩

theorem snapshot_of_rotated {next : Window}
    (rotated : summary.window.rotate summary.form.plan now = some next) :
    summary.snapshot now = .ok (next.read summary.form.plan, ⟨summary.form, next⟩) := by
  obtain ⟨form, window⟩ := summary
  simp [Summary.snapshot, Window.snapshot, timely, rotated]

theorem collect_eq_ok {family : Family} (collected : summary.collect now = .ok (family, later)) :
    ∃ shown, summary.snapshot now = .ok (shown, later) := by
  obtain ⟨⟨shown, next⟩, read, collected⟩ := bind_eq_ok.mp collected
  obtain ⟨-, rfl⟩ := Prod.mk.inj (Except.ok.inj collected)
  exact ⟨shown, read⟩

theorem observe_totals {word : Nat} {x : Binary64}
    (observed : summary.observe now word x = .ok later) :
    later.window.count = summary.window.count + 1 ∧
      later.window.sum = summary.window.sum.add x := by
  obtain ⟨-, turned, rotated, stored⟩ := observe_eq_ok observed
  obtain ⟨count, sum⟩ := Window.rotate_totals rotated
  obtain ⟨stored_count, stored_sum, -⟩ := Window.store_totals summary.form.plan word x turned
  rw [stored, stored_count, stored_sum, count, sum]
  exact ⟨rfl, rfl⟩

theorem snapshot_totals (read : summary.snapshot now = .ok (shown, later)) :
    shown.count = summary.window.count ∧ shown.sum = summary.window.sum ∧
      later.window.count = summary.window.count ∧ later.window.sum = summary.window.sum := by
  obtain ⟨-, rotated, rfl⟩ := snapshot_eq_ok read
  obtain ⟨count, sum⟩ := Window.rotate_totals rotated
  exact ⟨count, sum, count, sum⟩

end HedgedStore.Summary
