import HedgedStore.Metrics.Measurement
import HedgedStore.Proofs.Steps

/-! While the clock can count one slice further, nothing that is measured about a backend fails. -/
namespace HedgedStore

namespace Summary.Window

variable {plan : Plan} {now : Instant}

theorem create_timely (room : now.nanos + plan.slice.nanos < Instant.limit) :
    ∃ window, create plan now = some window := by
  simp [create, Instant.after?, room]

/-- A window that lags behind catches up with `now` and is at most a slice ahead of it. -/
theorem rotate_timely (room : now.nanos + plan.slice.nanos < Instant.limit) (window : Window) :
    ∃ rotated, window.rotate plan now = some rotated := by
  unfold rotate
  split
  · exact ⟨window, rfl⟩
  · rename_i late
    dsimp only
    split
    · simp [Instant.after?, room]
    · have behind := Nat.mul_div_le (now.since window.deadline).nanos plan.slice.nanos
      simp only [Instant.since] at behind
      have ahead : window.deadline.nanos +
          plan.slice.nanos * ((now.since window.deadline).nanos / plan.slice.nanos + 1) <
            Instant.limit := by
        simp only [Instant.since, Nat.mul_add, Nat.mul_one]
        omega
      simp [Instant.after?, ahead]

theorem observe_timely (room : now.nanos + plan.slice.nanos < Instant.limit) (window : Window)
    (word : Nat) (x : Binary64) : ∃ later, window.observe plan now word x = some later := by
  obtain ⟨rotated, turned⟩ := rotate_timely room window
  exact ⟨rotated.store plan word x, by simp [observe, turned]⟩

end Summary.Window

namespace Summary

theorem create_timely {now : Instant} {form : Form}
    (room : now.nanos + form.plan.slice.nanos < Instant.limit) :
    ∃ summary, Summary.create form now = .ok summary ∧ summary.form = form := by
  obtain ⟨window, created⟩ := Window.create_timely room
  exact ⟨⟨form, window⟩, by simp [create, timely, created], rfl⟩

theorem observe_timely {now : Instant} {summary : Summary}
    (room : now.nanos + summary.form.plan.slice.nanos < Instant.limit) (word : Nat) (x : Binary64) :
    ∃ later, summary.observe now word x = .ok later ∧ later.form = summary.form := by
  obtain ⟨form, window⟩ := summary
  obtain ⟨later, observed⟩ := Window.observe_timely room window word x
  exact ⟨⟨form, later⟩, by simp [observe, timely, observed], rfl⟩

end Summary

namespace SummaryVec

theorem enter_timely {now : Instant} {vec : SummaryVec}
    (room : now.nanos + vec.form.plan.slice.nanos < Instant.limit) (values : List String) :
    ∃ window later, vec.enter now values = .ok (window, later) ∧ later.form = vec.form := by
  unfold enter
  cases found : vec.find? values with
  | some window => exact ⟨window, vec, rfl, rfl⟩
  | none =>
    obtain ⟨window, created⟩ := Summary.Window.create_timely room
    exact ⟨window, vec.put values window, by simp [Summary.timely, created], rfl⟩

theorem observe_timely {now : Instant} {vec : SummaryVec}
    (room : now.nanos + vec.form.plan.slice.nanos < Instant.limit) {values : List String}
    (named : values.length = vec.form.description.labels.length) (word : Nat) (x : Binary64) :
    ∃ later, vec.observe now values word x = .ok later ∧ later.form = vec.form := by
  obtain ⟨window, entered, enters, form⟩ := enter_timely room values
  have room : now.nanos + entered.form.plan.slice.nanos < Instant.limit := by rwa [form]
  obtain ⟨later, observed⟩ := Summary.Window.observe_timely room window word x
  refine ⟨entered.put values later, ?_, form⟩
  simp [observe, checked, named, enters, Summary.timely, observed]

end SummaryVec

namespace StoreMetrics

/-- The summaries have the forms with which they were created. -/
def Regular (metrics : StoreMetrics) : Prop :=
  metrics.durations.form = durationsForm ∧ metrics.uploadSizes.form = uploadSizesForm ∧
    metrics.compressRatios.form = compressRatiosForm

def HasRoom (now : Instant) : Prop := now.nanos + (Duration.ofSeconds 10).nanos < Instant.limit

variable {now : Instant}

theorem HasRoom.mono {later : Instant} (room : HasRoom later) (le : now.nanos ≤ later.nanos) :
    HasRoom now :=
  Nat.lt_of_le_of_lt (Nat.add_le_add_right le _) room

theorem HasRoom.of_slice (room : HasRoom now) {form : Summary.Form}
    (slice : form.plan.slice = .ofSeconds 10) : now.nanos + form.plan.slice.nanos < Instant.limit := by
  rw [slice]
  exact room

theorem minute_slice (quantiles : List Float) : (minute quantiles).slice = .ofSeconds 10 := rfl

theorem create_regular (room : HasRoom now) :
    ∃ metrics, create now = .ok metrics ∧ metrics.Regular := by
  have sizes_slice : uploadSizesForm.plan.slice = .ofSeconds 10 := minute_slice _
  have ratios_slice : compressRatiosForm.plan.slice = .ofSeconds 10 := minute_slice _
  obtain ⟨sizes, created_sizes, sizes_form⟩ := Summary.create_timely (room.of_slice sizes_slice)
  obtain ⟨ratios, created_ratios, ratios_form⟩ := Summary.create_timely (room.of_slice ratios_slice)
  refine ⟨{ durations := { form := durationsForm }, uploadSizes := sizes
            compressRatios := ratios }, ?_, rfl, sizes_form, ratios_form⟩
  unfold create
  rw [created_sizes, created_ratios]
  rfl

theorem measure_regular (room : HasRoom now) {metrics : StoreMetrics} (regular : metrics.Regular)
    (word : Nat) (measurement : Measurement) :
    ∃ later, metrics.measure now word measurement = .ok later ∧ later.Regular := by
  obtain ⟨durations, sizes, ratios⟩ := regular
  cases measurement with
  | answered method status elapsed =>
    have room : now.nanos + metrics.durations.form.plan.slice.nanos < Instant.limit :=
      room.of_slice (by rw [durations]; rfl)
    have named : [method, toString status].length =
        metrics.durations.form.description.labels.length := by rw [durations]; rfl
    obtain ⟨later, observed, form⟩ := SummaryVec.observe_timely room named word elapsed.seconds
    refine ⟨{ metrics with
      requests := metrics.requests.add [method, toString status] 1, durations := later },
      ?_, form.trans durations, sizes, ratios⟩
    simp only [measure, record, observed, ok_bind, pure_eq_ok]
  | uploadSize bytes =>
    have room : now.nanos + metrics.uploadSizes.form.plan.slice.nanos < Instant.limit :=
      room.of_slice (by rw [sizes]; rfl)
    obtain ⟨later, observed, form⟩ :=
      Summary.observe_timely room word (.ofUInt64 bytes.toUInt64)
    refine ⟨{ metrics with uploadSizes := later }, ?_, durations, form.trans sizes, ratios⟩
    simp [measure, observeUploadSize, observed]
  | compressRatio ratio =>
    have room : now.nanos + metrics.compressRatios.form.plan.slice.nanos < Instant.limit :=
      room.of_slice (by rw [ratios]; rfl)
    obtain ⟨later, observed, form⟩ := Summary.observe_timely room word ratio
    refine ⟨{ metrics with compressRatios := later }, ?_, durations, sizes, form.trans ratios⟩
    simp [measure, observeCompressRatio, observed]
  | hedgeLaunched => exact ⟨_, rfl, durations, sizes, ratios⟩
  | hedgeAdopted => exact ⟨_, rfl, durations, sizes, ratios⟩

end StoreMetrics

end HedgedStore
