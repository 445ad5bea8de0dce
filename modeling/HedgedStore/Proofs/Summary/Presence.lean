import HedgedStore.Proofs.Summary.Journal

/-! What has just been observed is there to be read, if a slice's time is any time at all. Where the
window is shorter than a nanosecond for each slice it begins afresh at every use, and its quantiles
are taken over nothing. -/
namespace HedgedStore.Summary

theorem Reservoir.mem_observe {reservoir : Reservoir} {capacity word : Nat} {x y : Binary64}
    (mem : y ∈ (reservoir.observe capacity word x).samples) : y = x ∨ y ∈ reservoir.samples := by
  obtain ⟨samples, seen⟩ := reservoir
  rw [Reservoir.observe] at mem
  split at mem
  · exact (Array.mem_push.mp mem).symm
  · exact (Array.mem_or_eq_of_mem_setIfInBounds mem).symm

theorem Reservoir.observe_nonempty {capacity : Nat} (positive : 0 < capacity) (word : Nat)
    (x : Binary64) (reservoir : Reservoir) :
    (reservoir.observe capacity word x).samples.size ≠ 0 := by
  obtain ⟨samples, seen⟩ := reservoir
  rw [Reservoir.observe]
  split
  · rw [Array.size_push]
    exact Nat.succ_ne_zero samples.size
  · rw [Array.size_setIfInBounds]
    omega

theorem nearestRank_mem {sorted : Array Binary64} (nonempty : sorted.size ≠ 0) (q : Binary64) :
    nearestRank sorted q ∈ sorted := by
  unfold nearestRank
  dsimp only
  generalize (q.mul (.ofUInt64 sorted.size.toUInt64)).ceilNat = place
  have inside : min (place - 1) (sorted.size - 1) < sorted.size := by omega
  rw [Array.getElem?_eq_getElem inside, Option.getD_some]
  exact Array.getElem_mem inside

theorem nearestRank_nil (q : Binary64) : nearestRank #[] q = .nan := by
  simp [nearestRank]

namespace Window

variable {plan : Plan} {window next : Window} {now : Instant} {y : Binary64}

theorem mem_sorted : y ∈ window.sorted ↔ ∃ slice ∈ window.slices, y ∈ slice.samples := by
  simp [sorted]

theorem sorted_eq_nil (empty : ∀ slice ∈ window.slices, slice.samples.size = 0) :
    window.sorted = [] := by
  rw [List.eq_nil_iff_forall_not_mem]
  intro y mem
  obtain ⟨slice, there, held⟩ := mem_sorted.mp mem
  rw [Array.eq_empty_of_size_eq_zero (empty slice there)] at held
  exact Array.not_mem_empty y held

theorem sorted_nonempty {slice : Reservoir} (there : slice ∈ window.slices)
    (nonempty : slice.samples.size ≠ 0) : window.sorted.toArray.size ≠ 0 := by
  have held : slice.samples[0] ∈ window.sorted :=
    mem_sorted.mpr ⟨slice, there, Array.getElem_mem (Nat.pos_of_ne_zero nonempty)⟩
  rw [List.size_toArray]
  exact Nat.ne_of_gt (List.length_pos_of_mem held)

/-- All that the window holds is among the values. -/
def Holds (values : List Binary64) (window : Window) : Prop :=
  ∀ slice ∈ window.slices, ∀ y ∈ slice.samples, y ∈ values

variable {values : List Binary64}

theorem Holds.create (created : Window.create plan now = some window) : window.Holds values := by
  obtain ⟨deadline, -, created⟩ := Option.bind_eq_some_iff.mp created
  obtain rfl := Option.some.inj created
  intro slice mem y held
  rw [List.eq_of_mem_replicate mem] at held
  exact absurd held (Array.not_mem_empty y)

theorem Holds.renew {turns : Nat} {slices : List Reservoir}
    (holds : ∀ slice ∈ slices, ∀ y ∈ slice.samples, y ∈ values) :
    ∀ slice ∈ renew plan turns slices, ∀ y ∈ slice.samples, y ∈ values := by
  intro slice mem y held
  rcases List.mem_append.mp (List.mem_of_mem_take mem) with fresh | old
  · rw [List.eq_of_mem_replicate fresh] at held
    exact absurd held (Array.not_mem_empty y)
  · exact holds slice old y held

theorem Holds.rotate (holds : window.Holds values) (rotated : window.rotate plan now = some next) :
    next.Holds values := by
  cases turned rotated with
  | still => exact holds
  | afresh => exact Holds.renew holds
  | onward => exact Holds.renew holds

theorem Holds.store (holds : window.Holds values) (word : Nat) (x : Binary64) :
    (window.store plan word x).Holds (values ++ [x]) := by
  obtain ⟨slices, deadline, count, sum⟩ := window
  intro slice mem y held
  rw [List.mem_append, List.mem_singleton]
  cases slices with
  | nil => cases mem
  | cons newest older =>
    rcases List.mem_cons.mp mem with rfl | mem
    · rcases Reservoir.mem_observe held with rfl | old
      · exact .inr rfl
      · exact .inl (holds newest List.mem_cons_self y old)
    · exact .inl (holds slice (List.mem_cons_of_mem newest mem) y held)

/-- What is stored stands in the newest slice. -/
theorem store_fills (positive : 0 < plan.capacity) (wide : window.slices ≠ []) (word : Nat)
    (x : Binary64) : ∃ newest older, (window.store plan word x).slices = newest :: older ∧
      newest.samples.size ≠ 0 := by
  obtain ⟨slices, deadline, count, sum⟩ := window
  cases slices with
  | nil => exact absurd rfl wide
  | cons newest older => exact ⟨_, _, rfl, Reservoir.observe_nonempty positive word x newest⟩

/-- Without any time for its slices a window begins afresh at every use. -/
theorem rotate_instantly (instantly : plan.slice.nanos = 0)
    (late : window.deadline.nanos ≤ now.nanos) :
    window.rotate plan now =
      if now.nanos < Instant.limit then
        some { window with slices := List.replicate plan.slices .empty, deadline := now }
      else none := by
  obtain ⟨next, turned, rotates⟩ := rotate_eq plan window now
  cases turned with
  | still early => exact absurd early (Nat.not_lt_of_le late)
  | afresh idle =>
    rw [rotates, renew_all (Nat.le_refl plan.slices)]
    simp only [instantly, Nat.add_zero, Nat.not_lt_of_le late, false_or]
  | onward turns first within due ahead =>
    rw [instantly, Nat.zero_mul] at ahead
    exact absurd ahead (Nat.not_lt_of_le late)

theorem quantiles_mem {r : Binary64 × Binary64} (mem : r ∈ (window.read plan).quantiles) :
    ∃ q, r.2 = nearestRank window.sorted.toArray q := by
  obtain ⟨q, -, rfl⟩ := List.mem_map.mp mem
  exact ⟨q, rfl⟩

/-- A number that is stored while its slice's time runs stays for a reader at that instant. -/
theorem InStep.shows (kept : window.InStep plan now) (lasting : 0 < plan.slice.nanos)
    (nonempty : 0 < plan.slices) (capable : 0 < plan.capacity) (holds : window.Holds values)
    (word : Nat) (x : Binary64) :
    (window.store plan word x).rotate plan now = some (window.store plan word x) ∧
      (∃ newest older, (window.store plan word x).slices = newest :: older ∧
        newest.samples.size ≠ 0) ∧
      ∀ r ∈ ((window.store plan word x).read plan).quantiles, r.2 ∈ values ++ [x] := by
  have wide : window.slices ≠ [] := by
    rw [← List.length_pos_iff, kept.width]
    exact nonempty
  obtain ⟨newest, older, filled, some_held⟩ := store_fills capable wide word x
  refine ⟨rotate_of_early ((kept.store word x).ahead lasting), ⟨newest, older, filled, some_held⟩,
    fun r mem => ?_⟩
  obtain ⟨q, value⟩ := quantiles_mem mem
  have there : newest ∈ (window.store plan word x).slices := filled ▸ List.mem_cons_self
  have ranked := nearestRank_mem (sorted_nonempty there some_held) q
  obtain ⟨slice, among, held⟩ := mem_sorted.mp (List.mem_toArray.mp ranked)
  rw [value]
  exact holds.store word x slice among _ held

/-- Where a slice has no time, a reader finds nothing. -/
theorem InStep.shows_nothing (kept : window.InStep plan now) (instantly : plan.slice.nanos = 0)
    (present : now.nanos < Instant.limit) :
    ∃ next, window.rotate plan now = some next ∧
      (∀ slice ∈ next.slices, slice.samples.size = 0) ∧
      ∀ r ∈ (next.read plan).quantiles, r.2 = .nan := by
  have late : window.deadline.nanos ≤ now.nanos := by
    have near := kept.near
    omega
  have afresh := rotate_instantly instantly late
  rw [if_pos present] at afresh
  have empty : ∀ slice ∈ List.replicate plan.slices Reservoir.empty, slice.samples.size = 0 := by
    intro slice mem
    rw [List.eq_of_mem_replicate mem]
    rfl
  refine ⟨_, afresh, empty, fun r mem => ?_⟩
  obtain ⟨q, value⟩ := quantiles_mem mem
  rw [value, sorted_eq_nil empty]
  exact nearestRank_nil q

end Window

theorem journal_holds {form : Form} {start : Instant} {uses : List (Instant × Use)}
    {journal : Journal} (ran : Journal.run form start uses = .ok journal) :
    journal.summary.window.Holds ((observations uses).map (·.2)) := by
  have complete := Journal.run_complete ran
  have values : (observations uses).map (·.2) = journal.entries.map (·.value) := by
    rw [← complete.logged, List.map_map]
    rfl
  rw [values]
  obtain ⟨summary, created, used⟩ := bind_eq_ok.mp ran
  refine foldlM_keeps (P := fun journal : Journal =>
    journal.summary.window.Holds (journal.entries.map (·.value))) ?_
    (Window.Holds.create (create_eq_ok created).2) used
  intro journal use next holds stepped
  obtain ⟨-, turned, rotated, ⟨word, x, -, window, entries⟩ | ⟨-, window, entries⟩⟩ :=
    Journal.step_eq_ok stepped
  · rw [window, entries, List.map_append]
    exact (holds.rotate rotated).store word x
  · rw [window, entries]
    exact holds.rotate rotated

/-- A summary that has been used, and observes a number and is read at the same instant. If the
window is as long as a nanosecond for each slice, its newest slice holds a number and the quantiles
are numbers that have been observed; if it is shorter, they are taken over nothing. -/
theorem observation_shows_at_once {options : Options} {labels : List String} {form : Form}
    (formed : options.form labels = .ok form) {start now : Instant} {uses : List (Instant × Use)}
    (forward : Journal.Forward start uses now) {journal : Journal}
    (ran : Journal.run form start uses = .ok journal) {word : Nat} {x : Binary64} {after : Summary}
    (observed : journal.summary.observe now word x = .ok after) :
    ∃ shown later, after.snapshot now = .ok (shown, later) ∧
      (options.ageBuckets ≤ options.maxAge.nanos →
        (∃ newest older, later.window.slices = newest :: older ∧ newest.samples.size ≠ 0) ∧
        ∀ r ∈ shown.quantiles, r.2 ∈ (observations uses).map (·.2) ++ [x]) ∧
      (options.maxAge.nanos < options.ageBuckets →
        (∀ slice ∈ later.window.slices, slice.samples.size = 0) ∧
        ∀ r ∈ shown.quantiles, r.2 = .nan) := by
  obtain ⟨nonempty, shape⟩ := Options.plan_eq_ok (Options.form_eq_ok formed)
  obtain ⟨-, -, capable⟩ := Options.measured (Options.form_eq_ok formed)
  have slice : form.plan.slice.nanos = options.maxAge.nanos / options.ageBuckets := by rw [shape]
  have slices : form.plan.slices = options.ageBuckets := by rw [shape]
  have capacity : form.plan.capacity = options.maxSamples := by rw [shape]
  rw [← slices] at nonempty
  rw [← capacity] at capable
  obtain ⟨last, le, same, kept⟩ := Journal.run_inStep forward ran
  obtain ⟨after_form, turned, rotated, stored⟩ := observe_eq_ok observed
  rw [same] at after_form rotated stored
  obtain ⟨own, window⟩ := after
  obtain rfl : form = own := after_form.symm
  obtain rfl : window = turned.store form.plan word x := stored
  have turned_kept : turned.InStep form.plan now := kept.rotate le rotated
  rcases Nat.lt_or_ge options.maxAge.nanos options.ageBuckets with short | long
  · have instantly : form.plan.slice.nanos = 0 := slice.trans (Nat.div_eq_of_lt short)
    have present : now.nanos < Instant.limit := by
      have near := kept.near
      rw [Window.rotate_instantly instantly (by omega)] at rotated
      by_contra beyond
      rw [if_neg beyond] at rotated
      cases rotated
    obtain ⟨next, moved, empty, nothing⟩ :=
      (turned_kept.store word x).shows_nothing instantly present
    exact ⟨_, _, snapshot_of_rotated moved, fun long => by omega, fun _ => ⟨empty, nothing⟩⟩
  · have lasting : 0 < form.plan.slice.nanos := by
      rw [slice]
      exact Nat.div_pos long (slices ▸ nonempty)
    obtain ⟨still, filled, known⟩ := turned_kept.shows lasting nonempty capable
      ((journal_holds ran).rotate rotated) word x
    exact ⟨_, _, snapshot_of_rotated still, fun _ => ⟨filled, known⟩, fun short => by omega⟩

/-- A reader finds the number that ends a long silence. -/
theorem observation_shows_at_once_after_idling :
    brief.form [] = .ok briefForm ∧ ∃ journal after shown later newest older,
      Journal.run briefForm ⟨0⟩ briefUses = .ok journal ∧
      journal.summary.observe ⟨45⟩ 7 .one = .ok after ∧
      after.snapshot ⟨45⟩ = .ok (shown, later) ∧
      later.window.slices = newest :: older ∧ newest.samples.size ≠ 0 := by
  have forward : Journal.Forward ⟨0⟩ briefUses ⟨45⟩ := by
    unfold Journal.Forward
    decide
  have counted : (⟨45⟩ : Instant).nanos + briefForm.plan.slice.nanos < Instant.limit := by decide
  obtain ⟨journal, ran⟩ := Journal.run_timely forward counted
  rw [← (Journal.run_complete ran).form_eq] at counted
  obtain ⟨after, observed, -⟩ := observe_timely counted 7 .one
  obtain ⟨shown, later, read, shows, -⟩ :=
    observation_shows_at_once brief_form forward ran observed
  obtain ⟨⟨newest, older, filled, nonempty⟩, -⟩ := shows (by decide)
  exact ⟨brief_form, journal, after, shown, later, newest, older, ran, observed, read, filled,
    nonempty⟩

/-- The greatest number of a window of one nanosecond in two slices. -/
def sliver : Options :=
  { name := "w", help := "h", objectives := [(.one, .zero)], maxAge := ⟨1⟩, ageBuckets := 2 }

/-- A number is observed and counted, and at the same instant no slice holds it. -/
theorem sliver_shows_nothing :
    ∃ form summary after shown later, sliver.form [] = .ok form ∧
      Summary.create form ⟨0⟩ = .ok summary ∧ summary.observe ⟨0⟩ 7 .one = .ok after ∧
      after.snapshot ⟨0⟩ = .ok (shown, later) ∧ shown.count = 1 ∧
      (∀ slice ∈ later.window.slices, slice.samples.size = 0) ∧
      shown.quantiles = [(.one, .nan)] := by
  let form : Form :=
    { description := { name := "w", help := "h" }
      plan := { quantiles := [.one], slice := ⟨0⟩, slices := 2, capacity := 512 } }
  let cleared : Window := ⟨[.empty, .empty], ⟨0⟩, 1, Binary64.zero.add .one⟩
  have planned : sliver.plan = .ok form.plan := by
    simp [Options.plan, sliver, form]
    decide
  have formed : sliver.form [] = .ok form := by
    rw [Options.form, planned]
    rfl
  have empty : ∀ slice ∈ cleared.slices, slice.samples.size = 0 := by decide
  have read : (cleared.read form.plan).quantiles = [(.one, .nan)] := by
    simp [Window.read, form, Window.sorted_eq_nil empty, nearestRank_nil]
  exact ⟨form, ⟨form, ⟨[.empty, .empty], ⟨0⟩, 0, .zero⟩⟩, _, cleared.read form.plan,
    ⟨form, cleared⟩, formed, rfl, rfl, rfl, rfl, empty, read⟩

end HedgedStore.Summary
