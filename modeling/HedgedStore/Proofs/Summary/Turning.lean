import HedgedStore.Proofs.Summary.Journal

/-! Moving a window on, beside the plain procedure for it: at each end of a slice's time the oldest
slice makes way for an empty one. A window that has lain idle for its whole length begins afresh
instead, and its slices are then the same ones; only its deadline may come later. -/
namespace HedgedStore.Summary

namespace Window

/-- The newest slice's time is over: the oldest slice makes way for an empty one. -/
def turn (plan : Plan) (window : Window) : Window :=
  { window with
    slices := .empty :: window.slices.dropLast
    deadline := ⟨window.deadline.nanos + plan.slice.nanos⟩ }

/-- The window that is left when it has turned at every end of a slice's time up to `now`. -/
inductive Plainly (plan : Plan) (now : Instant) : Window → Window → Prop
  | rest {window : Window} (early : now.nanos < window.deadline.nanos) :
      Plainly plan now window window
  | turn {window next : Window} (due : window.deadline.nanos ≤ now.nanos)
      (onward : Plainly plan now (window.turn plan) next) : Plainly plan now window next

variable {plan : Plan} {window next other : Window} {now : Instant}

theorem Plainly.unique (first : Plainly plan now window next)
    (second : Plainly plan now window other) : other = next := by
  induction first with
  | rest early =>
    cases second with
    | rest => rfl
    | turn due => exact absurd early (Nat.not_lt_of_le due)
  | turn due onward ih =>
    cases second with
    | rest early => exact absurd early (Nat.not_lt_of_le due)
    | turn _ onward => exact ih onward

/-- So many turns at once. -/
def advance (plan : Plan) (turns : Nat) (window : Window) : Window :=
  { window with
    slices := renew plan turns window.slices
    deadline := ⟨window.deadline.nanos + plan.slice.nanos * turns⟩ }

theorem renew_turn (turns : Nat) {slices : List Reservoir} (width : slices.length = plan.slices) :
    renew plan turns (Reservoir.empty :: slices.dropLast) = renew plan (turns + 1) slices := by
  cases slices with
  | nil =>
    rw [renew, renew, ← width]
    rfl
  | cons newest older =>
    have joined : List.replicate turns Reservoir.empty ++
          Reservoir.empty :: (newest :: older).dropLast =
        (List.replicate (turns + 1) Reservoir.empty ++ newest :: older).dropLast := by
      rw [List.dropLast_append_of_ne_nil (List.cons_ne_nil newest older), List.replicate_succ',
        List.append_assoc, List.singleton_append]
    rw [renew, renew, joined, List.dropLast_eq_take, List.take_take, List.length_append,
      List.length_replicate, width, Nat.min_eq_left (by omega)]

theorem advance_zero (width : window.slices.length = plan.slices) :
    window.advance plan 0 = window := by
  obtain ⟨slices, deadline, count, sum⟩ := window
  have same : renew plan 0 slices = slices := by
    rw [renew, List.replicate_zero, List.nil_append, ← width, List.take_length]
  rw [advance, same]
  rfl

theorem advance_turn (turns : Nat) (width : window.slices.length = plan.slices) :
    (window.turn plan).advance plan turns = window.advance plan (turns + 1) := by
  have deadline : window.deadline.nanos + plan.slice.nanos + plan.slice.nanos * turns =
      window.deadline.nanos + plan.slice.nanos * (turns + 1) := by
    rw [Nat.mul_succ]
    omega
  rw [advance, advance, turn]
  simp only [renew_turn turns width, deadline]

theorem turn_length (positive : 0 < plan.slices) (width : window.slices.length = plan.slices) :
    (window.turn plan).slices.length = plan.slices := by
  rw [turn, List.length_cons, List.length_dropLast, width]
  omega

/-- Turning time after time comes to turning as often at once. -/
theorem plainly_advance (nonempty : 0 < plan.slices) (width : window.slices.length = plan.slices)
    {turns : Nat} (due : ∀ k < turns, window.deadline.nanos + plan.slice.nanos * k ≤ now.nanos)
    (ahead : now.nanos < window.deadline.nanos + plan.slice.nanos * turns) :
    Plainly plan now window (window.advance plan turns) := by
  induction turns generalizing window with
  | zero =>
    rw [advance_zero width]
    exact .rest ahead
  | succ turns ih =>
    refine .turn (due 0 (Nat.succ_pos turns)) ?_
    rw [← advance_turn turns width]
    refine ih (turn_length nonempty width) (fun k less => ?_) ?_
    · have later := due (k + 1) (Nat.succ_lt_succ less)
      rw [Nat.mul_succ] at later
      dsimp only [turn]
      omega
    · rw [Nat.mul_succ] at ahead
      dsimp only [turn]
      omega

/-- Beginning afresh leaves what the turns that it saves would have left. -/
theorem Turned.plainly (positive : 0 < plan.slice.nanos) (nonempty : 0 < plan.slices)
    (width : window.slices.length = plan.slices) (turned : Turned plan window now next) :
    ∃ plain, Plainly plan now window plain ∧ next = { plain with deadline := next.deadline } ∧
      (now.nanos < window.deadline.nanos + plan.slice.nanos * plan.slices → next = plain) := by
  cases turned with
  | still early => exact ⟨window, .rest early, rfl, fun _ => rfl⟩
  | afresh idle =>
    generalize lag : now.nanos - window.deadline.nanos = behind
    have passed : plan.slice.nanos * (behind / plan.slice.nanos) ≤ behind :=
      Nat.mul_div_le behind plan.slice.nanos
    have short : behind < plan.slice.nanos * (behind / plan.slice.nanos + 1) :=
      Nat.lt_mul_div_succ behind positive
    have enough : plan.slices ≤ behind / plan.slice.nanos := by
      rw [Nat.le_div_iff_mul_le positive, Nat.mul_comm]
      omega
    refine ⟨window.advance plan (behind / plan.slice.nanos + 1),
      plainly_advance nonempty width (fun k less => ?_) (by omega), ?_, fun busy => by omega⟩
    · have before : plan.slice.nanos * k ≤ plan.slice.nanos * (behind / plan.slice.nanos) :=
        Nat.mul_le_mul_left _ (Nat.le_of_lt_succ less)
      omega
    · rw [advance, renew_all (Nat.le_succ_of_le enough), renew_all (Nat.le_refl plan.slices)]
  | onward turns first within due ahead =>
    refine ⟨window.advance plan turns, plainly_advance nonempty width (fun k less => ?_) ahead, rfl,
      fun _ => rfl⟩
    have before : plan.slice.nanos * k ≤ plan.slice.nanos * (turns - 1) :=
      Nat.mul_le_mul_left _ (Nat.le_sub_one_of_lt less)
    omega

end Window

/-- However a summary has been used, moving it on to an instant leaves the slices that the plain
procedure leaves, and but for a fresh start its deadline too. The deadline then comes within a
slice's time, and moving on once more changes nothing. -/
theorem rotation_turns_plainly {options : Options} {labels : List String} {form : Form}
    (formed : options.form labels = .ok form) (whole : 1 ≤ form.plan.slice.nanos)
    {start now : Instant} {uses : List (Instant × Use)}
    (forward : Journal.Forward start uses now) {journal : Journal}
    (ran : Journal.run form start uses = .ok journal) :
    form.plan.slice.nanos * form.plan.slices ≤ options.maxAge.nanos ∧
    ∃ plain next : Window,
      (∀ other, Window.Plainly form.plan now journal.summary.window other ↔ other = plain) ∧
      journal.summary.window.rotate form.plan now =
        (if now.nanos < journal.summary.window.deadline.nanos ∨
            next.deadline.nanos < Instant.limit then some next
          else none) ∧
      next = { plain with deadline := next.deadline } ∧
      (now.nanos <
          journal.summary.window.deadline.nanos + form.plan.slice.nanos * form.plan.slices →
        next = plain) ∧
      next.slices.length = options.ageBuckets ∧
      now.nanos < next.deadline.nanos ∧
      next.deadline.nanos ≤ now.nanos + form.plan.slice.nanos ∧
      next.rotate form.plan now = some next := by
  obtain ⟨nonempty, shape⟩ := Options.plan_eq_ok (Options.form_eq_ok formed)
  have slices : form.plan.slices = options.ageBuckets := by rw [shape]
  rw [← slices] at nonempty ⊢
  obtain ⟨last, le, -, kept⟩ := Journal.run_inStep forward ran
  obtain ⟨next, turned, rotates⟩ := Window.rotate_eq form.plan journal.summary.window now
  obtain ⟨plain, plainly, same, onward⟩ := turned.plainly whole nonempty kept.width
  have after : next.InStep form.plan now :=
    turned.inStep kept.width (kept.near.trans (Nat.add_le_add_right le _))
  refine ⟨Options.length_le formed, plain, next, fun other => ⟨plainly.unique, ?_⟩, rotates, same,
    onward, after.width, after.ahead whole, after.near,
    Window.rotate_of_early (after.ahead whole)⟩
  rintro rfl
  exact plainly

/-- A number is observed, and then the window lies idle for more than its length. -/
theorem rotation_turns_plainly_after_idling :
    brief.form [] = .ok briefForm ∧ 1 ≤ briefForm.plan.slice.nanos ∧
    ∃ journal next, Journal.run briefForm ⟨0⟩ [(⟨1⟩, .observe 7 .one)] = .ok journal ∧
      journal.summary.window.slices = [⟨#[.one], 1⟩, .empty] ∧
      journal.summary.window.rotate briefForm.plan ⟨35⟩ = some next ∧
      next.slices = [.empty, .empty] ∧ 35 < next.deadline.nanos ∧ next.deadline.nanos ≤ 45 ∧
      next.rotate briefForm.plan ⟨35⟩ = some next := by
  have forward : Journal.Forward ⟨0⟩ [(⟨1⟩, .observe 7 .one)] ⟨35⟩ := by
    unfold Journal.Forward
    decide
  let used : Window := ⟨[⟨#[.one], 1⟩, .empty], ⟨10⟩, 1, Binary64.zero.add .one⟩
  have ran : Journal.run briefForm ⟨0⟩ [(⟨1⟩, .observe 7 .one)] =
      .ok ⟨⟨briefForm, used⟩, [⟨.one, ⟨1⟩, ⟨10⟩⟩]⟩ := rfl
  obtain ⟨-, plain, next, unique, rotates, same, -, -, ahead, near, still⟩ :=
    rotation_turns_plainly brief_form (by decide) forward ran
  have turns : Window.Plainly briefForm.plan ⟨35⟩ used
      ⟨[.empty, .empty], ⟨40⟩, 1, Binary64.zero.add .one⟩ :=
    .turn (by decide) (.turn (by decide) (.turn (by decide) (.rest (by decide))))
  obtain rfl := (unique _).mp turns
  have counted : next.deadline.nanos < Instant.limit := Nat.lt_of_le_of_lt near (by decide)
  rw [if_pos (.inr counted)] at rotates
  exact ⟨brief_form, by decide, _, next, ran, rfl, rotates, congrArg Window.slices same, ahead,
    near, still⟩

end HedgedStore.Summary
