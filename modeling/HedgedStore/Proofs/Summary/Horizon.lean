import HedgedStore.Proofs.Summary.Series

/-! How far the clock has to count. A summary is accepted whatever time its slices take, but whoever
creates or uses it is stopped where it has to set a deadline that the clock cannot count to. So up
to a horizon nobody is stopped exactly if the clock counts a slice further. -/
namespace HedgedStore

theorem Instant.after_isSome {t : Instant} {d : Duration} :
    (∃ later, t.after? d = some later) ↔ t.nanos + d.nanos < Instant.limit := by
  simp [Instant.after?]

namespace Summary

theorem Window.create_returns {plan : Plan} {now : Instant} :
    (∃ window, Window.create plan now = some window) ↔
      now.nanos + plan.slice.nanos < Instant.limit := by
  constructor
  · rintro ⟨window, created⟩
    obtain ⟨deadline, counted, -⟩ := Option.bind_eq_some_iff.mp created
    exact Instant.after_isSome.mp ⟨deadline, counted⟩
  · exact Window.create_timely

theorem create_returns {form : Form} {now : Instant} :
    (∃ summary, Summary.create form now = .ok summary) ↔
      now.nanos + form.plan.slice.nanos < Instant.limit := by
  constructor
  · rintro ⟨summary, created⟩
    exact Window.create_returns.mp ⟨summary.window, (create_eq_ok created).2⟩
  · intro room
    obtain ⟨summary, created, -⟩ := create_timely room
    exact ⟨summary, created⟩

theorem snapshot_eq_error {summary : Summary} {now : Instant} {fault : Fault}
    (failed : summary.snapshot now = .error fault) : fault = .clockOverflow := by
  obtain ⟨form, window⟩ := summary
  rcases bind_eq_error.mp failed with failed | ⟨read, -, failed⟩
  · exact SummaryVec.timely_eq_error failed
  · cases failed

namespace Journal

variable {form : Form} {journal : Journal} {horizon : Instant} {use : Instant × Use} {fault : Fault}

/-- A use returns if the window can be moved on to it. -/
theorem step_returns_iff : (∃ later, journal.step use = .ok later) ↔
    ∃ turned, journal.summary.window.rotate journal.summary.form.plan use.1 = some turned := by
  constructor
  · rintro ⟨later, stepped⟩
    obtain ⟨-, turned, rotated, -⟩ := step_eq_ok stepped
    exact ⟨turned, rotated⟩
  · rintro ⟨turned, rotated⟩
    obtain ⟨⟨form, window⟩, entries⟩ := journal
    obtain ⟨now, use⟩ := use
    cases use with
    | observe word x => simp [step, Summary.observe, Window.observe, timely, rotated]
    | snapshot => simp [step, snapshot_of_rotated rotated]
    | collect => simp [step, Summary.collect, snapshot_of_rotated rotated]

theorem step_eq_error (failed : journal.step use = .error fault) : fault = .clockOverflow := by
  obtain ⟨⟨form, window⟩, entries⟩ := journal
  obtain ⟨now, use⟩ := use
  cases use with
  | observe word x =>
    rcases bind_eq_error.mp failed with failed | ⟨later, -, failed⟩
    · exact SummaryVec.moved_eq_error failed
    · cases failed
  | snapshot =>
    rcases bind_eq_error.mp failed with failed | ⟨read, -, failed⟩
    · exact snapshot_eq_error failed
    · cases failed
  | collect =>
    rcases bind_eq_error.mp failed with failed | ⟨collected, -, failed⟩
    · rcases bind_eq_error.mp failed with failed | ⟨read, -, failed⟩
      · exact snapshot_eq_error failed
      · cases failed
    · cases failed

theorem runs_return_iff :
    (∀ start uses, Forward start uses horizon → ∃ journal, run form start uses = .ok journal) ↔
      horizon.nanos + form.plan.slice.nanos < Instant.limit := by
  constructor
  · intro returns
    have once : Forward horizon [] horizon := by simp [Forward]
    obtain ⟨journal, ran⟩ := returns horizon [] once
    obtain ⟨summary, created, -⟩ := bind_eq_ok.mp ran
    exact create_returns.mp ⟨summary, created⟩
  · exact fun room start uses forward => run_timely forward room

end Journal

end Summary

namespace SummaryVec

open Summary (Fault Form Options)

variable {form : Form} {vec : SummaryVec} {horizon : Instant} {use : Instant × Use} {fault : Fault}

theorem resume_eq_error {outcome : Except Fault SummaryVec}
    (failed : vec.resume outcome = .error fault) : fault = .clockOverflow := by
  cases outcome with
  | ok later => cases failed
  | error why =>
    cases why with
    | cardinality => cases failed
    | clockOverflow => exact (Except.error.inj failed).symm

theorem collect_eq_error {now : Instant} (failed : vec.collect now = .error fault) :
    fault = .clockOverflow := by
  rcases bind_eq_error.mp failed with failed | ⟨read, -, failed⟩
  · obtain ⟨entry, -, failed⟩ := mapM_eq_error failed
    rcases bind_eq_error.mp failed with failed | ⟨seen, -, failed⟩
    · exact timely_eq_error failed
    · cases failed
  · cases failed

theorem step_eq_error (failed : vec.step use = .error fault) : fault = .clockOverflow := by
  obtain ⟨now, use⟩ := use
  cases use with
  | observe values word x => exact resume_eq_error failed
  | snapshot values => exact resume_eq_error failed
  | collect =>
    cases collected : vec.collect now with
    | ok result =>
      rw [step, collected] at failed
      cases failed
    | error why =>
      rw [step, collected] at failed
      obtain rfl := Except.error.inj failed
      exact collect_eq_error collected

/-- A tuple of values that fits is named at the horizon for the first time. -/
theorem runs_return_iff :
    (∀ uses : List (Instant × Use), (∀ use ∈ uses, use.1.nanos ≤ horizon.nanos) →
      ∃ vec, run form uses = .ok vec) ↔
      horizon.nanos + form.plan.slice.nanos < Instant.limit := by
  constructor
  · intro returns
    let values := List.replicate form.description.labels.length ""
    let uses : List (Instant × Use) := [(horizon, .snapshot values)]
    obtain ⟨vec, ran⟩ := returns uses (by simp [uses])
    have kept : Kept form form uses vec := run_kept rfl ran
    have there : vec.find? values ≠ none :=
      (kept.mem_iff values).mpr ⟨List.length_replicate, _, List.mem_singleton_self _, rfl⟩
    obtain ⟨window, found⟩ := Option.ne_none_iff_exists'.mp there
    obtain ⟨journal, made, -⟩ := kept.same values window found horizon
    have handed : given values uses = [(horizon, .snapshot)] := by
      simp [given, hand, uses, Use.values?, Use.share?]
    rw [apart, handed] at made
    obtain ⟨summary, created, -⟩ := bind_eq_ok.mp made
    exact Summary.create_returns.mp ⟨summary, created⟩
  · exact fun room uses early => steps_timely fun use member =>
      Nat.lt_of_le_of_lt (Nat.add_le_add_right (early use member) _) room

end SummaryVec

namespace Summary

/-- Whatever options are accepted, the length of the window is that of its slices and no longer than
was asked for, and only the clock stops a caller: who creates a summary if the clock cannot count a
slice further, and who uses one if the window has to move on to a deadline out of the clock's
reach. So nobody is stopped up to a horizon exactly if the clock counts a slice further, whether the
summary stands alone or in a family. -/
theorem stopped_by_clock_alone {options : Options} {labels : List String} {form : Form}
    (formed : options.form labels = .ok form) :
    form.plan.slice.nanos * form.plan.slices ≤ options.maxAge.nanos ∧
    (∀ now, (∃ summary, Summary.create form now = .ok summary) ↔
      now.nanos + form.plan.slice.nanos < Instant.limit) ∧
    (∀ (journal : Journal) (use : Instant × Use),
      (∀ fault, journal.step use = .error fault → fault = .clockOverflow) ∧
      ∃ next, Window.Turned journal.summary.form.plan journal.summary.window use.1 next ∧
        ((∃ later, journal.step use = .ok later) ↔
          use.1.nanos < journal.summary.window.deadline.nanos ∨
            next.deadline.nanos < Instant.limit)) ∧
    (∀ (vec : SummaryVec) (use : Instant × SummaryVec.Use) fault,
      vec.step use = .error fault → fault = .clockOverflow) ∧
    ∀ horizon : Instant,
      ((∀ start uses, Journal.Forward start uses horizon →
          ∃ journal, Journal.run form start uses = .ok journal) ↔
        horizon.nanos + form.plan.slice.nanos < Instant.limit) ∧
      ((∀ uses : List (Instant × SummaryVec.Use), (∀ use ∈ uses, use.1.nanos ≤ horizon.nanos) →
          ∃ vec, SummaryVec.run form uses = .ok vec) ↔
        horizon.nanos + form.plan.slice.nanos < Instant.limit) := by
  refine ⟨Options.length_le formed, fun now => create_returns, fun journal use => ⟨fun fault =>
    Journal.step_eq_error, ?_⟩, fun vec use fault => SummaryVec.step_eq_error,
    fun horizon => ⟨Journal.runs_return_iff, SummaryVec.runs_return_iff⟩⟩
  obtain ⟨next, turned, rotates⟩ :=
    Window.rotate_eq journal.summary.form.plan journal.summary.window use.1
  refine ⟨next, turned, Journal.step_returns_iff.trans ?_⟩
  rw [rotates]
  split
  · rename_i counted
    exact iff_of_true ⟨next, rfl⟩ counted
  · rename_i beyond
    exact iff_of_false nofun beyond

/-- The last instant at which a summary of slices of ten nanoseconds can be created. -/
theorem stopped_by_clock_alone_in_brief_window :
    brief.form [] = .ok briefForm ∧
    (∃ summary, Summary.create briefForm ⟨Instant.limit - 11⟩ = .ok summary) ∧
    ¬ ∃ summary, Summary.create briefForm ⟨Instant.limit - 10⟩ = .ok summary := by
  obtain ⟨-, creates, -⟩ := stopped_by_clock_alone brief_form
  exact ⟨brief_form, (creates _).mpr (by decide), fun created => absurd ((creates _).mp created)
    (by decide)⟩

/-- The longest window there is, in one slice. -/
def endless : Options :=
  { name := "w", help := "h", maxAge := .ofSeconds 0xFFFFFFFFFFFFFFFF, ageBuckets := 1 }

/-- The options are accepted, and the summary cannot be created at an instant of the clock. -/
theorem endless_stopped_by_clock :
    ∃ form, endless.form [] = .ok form ∧ 1000000000000000 < Instant.limit ∧
      Summary.create form ⟨1000000000000000⟩ = .error .clockOverflow := by
  let form : Form :=
    { description := { name := "w", help := "h" }
      plan := { slice := .ofSeconds 0xFFFFFFFFFFFFFFFF, slices := 1, capacity := 512 } }
  have planned : endless.plan = .ok form.plan := by
    simp [Options.plan, endless, form, Duration.ofSeconds, Duration.nanosPerSecond]
  have formed : endless.form [] = .ok form := by
    rw [Options.form, planned]
    rfl
  exact ⟨form, formed, by decide, rfl⟩

end Summary

end HedgedStore
