import HedgedStore.Proofs.Metrics.Timely
import HedgedStore.Proofs.Summary.Recall

/-! A summary in use, beside the log of what it was given. Whatever is done with it and whenever,
its count and sum are those of the whole log, and its quantiles those of the live entries. -/
namespace HedgedStore.Summary

theorem snapshot_timely {now : Instant} {summary : Summary}
    (room : now.nanos + summary.form.plan.slice.nanos < Instant.limit) :
    ∃ shown later, summary.snapshot now = .ok (shown, later) := by
  obtain ⟨turned, rotated⟩ := Window.rotate_timely room summary.window
  exact ⟨_, _, snapshot_of_rotated rotated⟩

/-- What is done with a summary. -/
inductive Use
  | observe (word : Nat) (x : Binary64)
  | snapshot
  | collect
deriving DecidableEq, Repr

def observations (uses : List (Instant × Use)) : List (Instant × Binary64) :=
  uses.filterMap fun
    | (now, .observe _ x) => some (now, x)
    | (_, .snapshot) | (_, .collect) => none

structure Journal where
  summary : Summary
  entries : List Entry := []
deriving Repr

namespace Journal

def step (journal : Journal) : Instant × Use → Except Fault Journal
  | (now, .observe word x) => do
    let later ← journal.summary.observe now word x
    return ⟨later, journal.entries ++ [⟨x, now, later.window.deadline⟩]⟩
  | (now, .snapshot) => do
    let (_, later) ← journal.summary.snapshot now
    return ⟨later, journal.entries⟩
  | (now, .collect) => do
    let (_, later) ← journal.summary.collect now
    return ⟨later, journal.entries⟩

/-- A summary created at `start` and used from then on. -/
def run (form : Form) (start : Instant) (uses : List (Instant × Use)) : Except Fault Journal := do
  uses.foldlM step ⟨← Summary.create form start, []⟩

/-- The instants come in order, from `start` up to `now`. -/
def Forward (start : Instant) (uses : List (Instant × Use)) (now : Instant) : Prop :=
  (start :: (uses.map (·.1) ++ [now])).Pairwise fun t later => t.nanos ≤ later.nanos

variable {form : Form} {journal later : Journal} {start now : Instant} {use : Instant × Use}
  {uses done : List (Instant × Use)}

theorem Forward.head (forward : Forward start (use :: uses) now) :
    start.nanos ≤ use.1.nanos ∧ Forward use.1 uses now := by
  obtain ⟨first, rest⟩ := List.pairwise_cons.mp forward
  exact ⟨first use.1 (by simp), rest⟩

theorem Forward.le (forward : Forward start uses now) : start.nanos ≤ now.nanos :=
  (List.pairwise_cons.mp forward).1 now (by simp)

/-- What a step does: the window turns, and takes in what is observed. -/
theorem step_eq_ok (stepped : journal.step use = .ok later) :
    later.summary.form = journal.summary.form ∧
    ∃ turned, journal.summary.window.rotate journal.summary.form.plan use.1 = some turned ∧
      ((∃ word x, use.2 = .observe word x ∧
          later.summary.window = turned.store journal.summary.form.plan word x ∧
          later.entries = journal.entries ++ [⟨x, use.1, turned.deadline⟩]) ∨
        observations [use] = [] ∧ later.summary.window = turned ∧
          later.entries = journal.entries) := by
  obtain ⟨now, use⟩ := use
  cases use with
  | observe word x =>
    obtain ⟨next, observed, stepped⟩ := bind_eq_ok.mp stepped
    obtain rfl := Except.ok.inj stepped
    obtain ⟨form, turned, rotated, stored⟩ := observe_eq_ok observed
    have deadline := (Window.store_totals journal.summary.form.plan word x turned).2.2
    refine ⟨form, turned, rotated, .inl ⟨word, x, rfl, stored, ?_⟩⟩
    rw [stored, deadline]
  | snapshot =>
    obtain ⟨⟨shown, next⟩, read, stepped⟩ := bind_eq_ok.mp stepped
    obtain rfl := Except.ok.inj stepped
    obtain ⟨form, rotated, -⟩ := snapshot_eq_ok read
    exact ⟨form, next.window, rotated, .inr ⟨rfl, rfl, rfl⟩⟩
  | collect =>
    obtain ⟨⟨family, next⟩, collected, stepped⟩ := bind_eq_ok.mp stepped
    obtain rfl := Except.ok.inj stepped
    obtain ⟨shown, read⟩ := collect_eq_ok collected
    obtain ⟨form, rotated, -⟩ := snapshot_eq_ok read
    exact ⟨form, next.window, rotated, .inr ⟨rfl, rfl, rfl⟩⟩

/-- What is observed is logged, in the slice that is then the newest. -/
theorem step_logs (stepped : journal.step use = .ok later) :
    ∃ turned, journal.summary.window.rotate journal.summary.form.plan use.1 = some turned ∧
      later.summary.window.deadline = turned.deadline ∧
      later.entries = journal.entries ++
        (observations [use]).map fun seen => ⟨seen.2, seen.1, turned.deadline⟩ := by
  obtain ⟨-, turned, rotated, ⟨word, x, kind, window, entries⟩ | ⟨nothing, window, entries⟩⟩ :=
    step_eq_ok stepped
  · obtain ⟨now, use⟩ := use
    obtain rfl : use = .observe word x := kind
    have deadline := (Window.store_totals journal.summary.form.plan word x turned).2.2
    exact ⟨turned, rotated, by rw [window, deadline], entries⟩
  · refine ⟨turned, rotated, by rw [window], ?_⟩
    rw [entries, nothing, List.map_nil, List.append_nil]

/-- What is observed is counted and summed up. -/
theorem step_totals (stepped : journal.step use = .ok later) :
    later.summary.window.count = journal.summary.window.count + (observations [use]).length ∧
      later.summary.window.sum =
        ((observations [use]).map (·.2)).foldl Binary64.add journal.summary.window.sum := by
  obtain ⟨-, turned, rotated, ⟨word, x, kind, window, -⟩ | ⟨nothing, window, -⟩⟩ :=
    step_eq_ok stepped
  · obtain ⟨now, use⟩ := use
    obtain rfl : use = .observe word x := kind
    obtain ⟨count, sum⟩ := Window.rotate_totals rotated
    obtain ⟨stored_count, stored_sum, -⟩ :=
      Window.store_totals journal.summary.form.plan word x turned
    rw [window, stored_count, stored_sum, count, sum]
    exact ⟨rfl, rfl⟩
  · rw [window, nothing]
    exact Window.rotate_totals rotated

/-- What every use keeps holds of the journal when it was last used. -/
theorem steps_keep {P : Journal → Instant → Prop}
    (keeps : ∀ journal last use next, P journal last → last.nanos ≤ use.1.nanos →
      journal.step use = .ok next → P next use.1)
    (forward : Forward start uses now) (kept : P journal start)
    (ran : uses.foldlM step journal = .ok later) :
    ∃ last : Instant, last.nanos ≤ now.nanos ∧ P later last := by
  induction uses generalizing journal start with
  | nil =>
    obtain rfl := Except.ok.inj ran
    exact ⟨start, forward.le, kept⟩
  | cons use uses ih =>
    obtain ⟨next, stepped, ran⟩ := bind_eq_ok.mp ran
    obtain ⟨le, forward⟩ := forward.head
    exact ih forward (keeps journal start use next kept le stepped) ran

theorem run_keeps {P : Journal → Instant → Prop}
    (begins : ∀ summary, Summary.create form start = .ok summary → P ⟨summary, []⟩ start)
    (keeps : ∀ journal last use next, P journal last → last.nanos ≤ use.1.nanos →
      journal.step use = .ok next → P next use.1)
    (forward : Forward start uses now) (ran : run form start uses = .ok journal) :
    ∃ last : Instant, last.nanos ≤ now.nanos ∧ P journal last := by
  obtain ⟨summary, created, used⟩ := bind_eq_ok.mp ran
  exact steps_keep keeps forward (begins summary created) used

theorem step_inStep {plan : Plan} {last : Instant} (same : journal.summary.form.plan = plan)
    (kept : journal.summary.window.InStep plan last) (le : last.nanos ≤ use.1.nanos)
    (stepped : journal.step use = .ok later) : later.summary.window.InStep plan use.1 := by
  obtain ⟨-, turned, rotated, ⟨word, x, -, window, -⟩ | ⟨-, window, -⟩⟩ := step_eq_ok stepped
  · rw [window, same]
    exact (kept.rotate le (same ▸ rotated)).store word x
  · rw [window]
    exact kept.rotate le (same ▸ rotated)

theorem run_inStep (forward : Forward start uses now) (ran : run form start uses = .ok journal) :
    ∃ last : Instant, last.nanos ≤ now.nanos ∧ journal.summary.form = form ∧
      journal.summary.window.InStep form.plan last := by
  refine run_keeps (P := fun journal last => journal.summary.form = form ∧
    journal.summary.window.InStep form.plan last) ?_ ?_ forward ran
  · intro summary created
    obtain ⟨same, made⟩ := create_eq_ok created
    exact ⟨same, .create made⟩
  · intro journal last use next kept le stepped
    obtain ⟨rfl, kept⟩ := kept
    exact ⟨(step_eq_ok stepped).1, step_inStep rfl kept le stepped⟩

/-! The log is what was observed, and the count and the sum are taken over all of it. -/

structure Complete (form : Form) (journal : Journal) (done : List (Instant × Use)) : Prop where
  form_eq : journal.summary.form = form
  logged : journal.entries.map (fun e => (e.made, e.value)) = observations done
  count : journal.summary.window.count = journal.entries.length
  sum : journal.summary.window.sum = (journal.entries.map (·.value)).foldl Binary64.add .zero

theorem Complete.step (complete : Complete form journal done)
    (stepped : journal.step use = .ok later) : Complete form later (done ++ [use]) := by
  have append : observations (done ++ [use]) = observations done ++ observations [use] :=
    List.filterMap_append
  obtain ⟨turned, -, -, entries⟩ := step_logs stepped
  obtain ⟨count, sum⟩ := step_totals stepped
  refine ⟨(step_eq_ok stepped).1.trans complete.form_eq, ?_, ?_, ?_⟩
  · rw [entries, List.map_append, complete.logged, append, List.map_map]
    exact congrArg _ (List.map_id _)
  · rw [entries, count, complete.count, List.length_append, List.length_map]
  · rw [entries, sum, complete.sum, List.map_append, List.foldl_append, List.map_map]
    rfl

theorem Complete.steps (complete : Complete form journal done)
    (ran : uses.foldlM Journal.step journal = .ok later) : Complete form later (done ++ uses) := by
  induction uses generalizing journal done with
  | nil =>
    obtain rfl := Except.ok.inj ran
    rwa [List.append_nil]
  | cons use uses ih =>
    obtain ⟨next, stepped, ran⟩ := bind_eq_ok.mp ran
    have whole := ih (complete.step stepped) ran
    rwa [List.append_assoc] at whole

theorem run_complete (ran : run form start uses = .ok journal) : Complete form journal uses := by
  obtain ⟨summary, created, ran⟩ := bind_eq_ok.mp ran
  obtain ⟨form_eq, created⟩ := create_eq_ok created
  obtain ⟨count, sum⟩ := Window.create_totals created
  have created_complete : Complete form ⟨summary, []⟩ [] := ⟨form_eq, rfl, count, sum⟩
  exact created_complete.steps ran

/-! The window shows the live entries, as long as no slice gets more of them than it can hold. -/

theorem step_extends (stepped : journal.step use = .ok later) :
    journal.entries <+: later.entries := by
  obtain ⟨turned, -, -, entries⟩ := step_logs stepped
  exact entries ▸ List.prefix_append _ _

theorem steps_extend (ran : uses.foldlM step journal = .ok later) :
    journal.entries <+: later.entries := by
  induction uses generalizing journal with
  | nil =>
    obtain rfl := Except.ok.inj ran
    exact List.prefix_rfl
  | cons use uses ih =>
    obtain ⟨next, stepped, ran⟩ := bind_eq_ok.mp ran
    exact (step_extends stepped).trans (ih ran)

/-- No slice was given more than `most` numbers. -/
def Fits (most : Nat) (entries : List Entry) : Prop :=
  ∀ deadline, entries.countP (·.deadline = deadline) ≤ most

theorem Fits.of_prefix {most : Nat} {entries more : List Entry} (fits : Fits most more)
    (before : entries <+: more) : Fits most entries :=
  fun deadline => before.sublist.countP_le.trans (fits deadline)

/-- The journal's window is at an instant what the journal's entries tell. -/
def Recalls (journal : Journal) (now : Instant) : Prop :=
  journal.summary.window.Recalls journal.summary.form.plan journal.entries now

theorem step_recalls (same : journal.summary.form = form) (positive : 0 < form.plan.slice.nanos)
    (nonempty : 0 < form.plan.slices)
    (recalls : journal.summary.window.Recalls form.plan journal.entries now)
    (le : now.nanos ≤ use.1.nanos) (stepped : journal.step use = .ok later)
    (fits : Fits form.plan.capacity later.entries) :
    later.summary.window.Recalls form.plan later.entries use.1 := by
  subst same
  obtain ⟨-, turned, rotated, ⟨word, x, -, window, entries⟩ | ⟨-, window, entries⟩⟩ :=
    step_eq_ok stepped
  · have turned_recalls := Window.Recalls.rotate positive recalls le rotated
    have room := fits turned.deadline
    rw [entries, List.countP_append, List.countP_singleton, if_pos (by simp)] at room
    rw [window, entries]
    exact turned_recalls.store positive nonempty word x room
  · rw [window, entries]
    exact Window.Recalls.rotate positive recalls le rotated

theorem run_recalls (positive : 0 < form.plan.slice.nanos) (nonempty : 0 < form.plan.slices)
    (forward : Forward start uses now) (ran : run form start uses = .ok journal)
    (fits : Fits form.plan.capacity journal.entries) :
    ∃ last : Instant, last.nanos ≤ now.nanos ∧ journal.Recalls last := by
  obtain ⟨last, reached, rfl, recalls⟩ := run_keeps
    (P := fun journal last => journal.summary.form = form ∧
      (Fits form.plan.capacity journal.entries →
        journal.summary.window.Recalls form.plan journal.entries last))
    (fun summary made => by
      obtain ⟨rfl, created⟩ := create_eq_ok made
      exact ⟨rfl, fun _ => Window.Recalls.create positive created⟩)
    (fun journal last use next kept le stepped => by
      obtain ⟨same, recalls⟩ := kept
      exact ⟨(step_eq_ok stepped).1.trans same, fun fits => step_recalls same positive nonempty
        (recalls (fits.of_prefix (step_extends stepped))) le stepped fits⟩)
    forward ran
  exact ⟨last, reached, recalls fits⟩

/-! While the clock can count a slice further, every use returns. -/

theorem step_timely (journal : Journal) (use : Instant × Use)
    (room : use.1.nanos + journal.summary.form.plan.slice.nanos < Instant.limit) :
    ∃ later, journal.step use = .ok later := by
  obtain ⟨now, use⟩ := use
  cases use with
  | observe word x =>
    obtain ⟨later, observed, -⟩ := observe_timely room word x
    exact ⟨_, by rw [step, observed]; rfl⟩
  | snapshot =>
    obtain ⟨shown, later, read⟩ := snapshot_timely room
    exact ⟨_, by rw [step, read]; rfl⟩
  | collect =>
    obtain ⟨shown, later, read⟩ := snapshot_timely room
    exact ⟨_, by rw [step, Summary.collect, read]; rfl⟩

theorem steps_timely (journal : Journal) (forward : Forward start uses now)
    (room : now.nanos + journal.summary.form.plan.slice.nanos < Instant.limit) :
    ∃ later, uses.foldlM step journal = .ok later := by
  induction uses generalizing journal start with
  | nil => exact ⟨journal, rfl⟩
  | cons use uses ih =>
    obtain ⟨-, forward⟩ := forward.head
    have reached := forward.le
    obtain ⟨next, stepped⟩ := step_timely journal use (by omega)
    rw [← (step_eq_ok stepped).1] at room
    obtain ⟨later, ran⟩ := ih next forward room
    exact ⟨later, bind_eq_ok.mpr ⟨next, stepped, ran⟩⟩

theorem run_timely (forward : Forward start uses now)
    (room : now.nanos + form.plan.slice.nanos < Instant.limit) :
    ∃ journal, run form start uses = .ok journal := by
  have reached := forward.le
  have start_room : start.nanos + form.plan.slice.nanos < Instant.limit := by omega
  obtain ⟨summary, created, rfl⟩ := create_timely start_room
  obtain ⟨journal, ran⟩ := steps_timely ⟨summary, []⟩ forward room
  exact ⟨journal, bind_eq_ok.mpr ⟨summary, created, ran⟩⟩

end Journal

theorem Options.plan_eq_ok {options : Options} {plan : Plan} (planned : options.plan = .ok plan) :
    0 < options.ageBuckets ∧
      plan = { quantiles := (options.objectives.map (·.1)).mergeSort Binary64.atMost
               slice := ⟨options.maxAge.nanos / options.ageBuckets⟩
               slices := options.ageBuckets
               capacity := options.maxSamples } := by
  unfold Options.plan at planned
  split at planned
  · cases planned
  · rename_i measured
    dsimp only at planned
    split at planned
    · cases planned
    · exact ⟨Nat.pos_of_ne_zero fun none_asked => measured (.inl none_asked),
        (Except.ok.inj planned).symm⟩

theorem Options.measured {options : Options} {plan : Plan} (planned : options.plan = .ok plan) :
    0 < options.ageBuckets ∧ 0 < options.maxAge.nanos ∧ 0 < options.maxSamples := by
  unfold Options.plan at planned
  split at planned
  · cases planned
  · rename_i measured
    push Not at measured
    exact ⟨Nat.pos_of_ne_zero measured.1, Nat.pos_of_ne_zero measured.2.1,
      Nat.pos_of_ne_zero measured.2.2⟩

theorem Options.form_eq_ok {options : Options} {labels : List String} {form : Form}
    (formed : options.form labels = .ok form) : options.plan = .ok form.plan := by
  obtain ⟨plan, planned, formed⟩ := bind_eq_ok.mp formed
  dsimp only at formed
  split at formed
  · cases formed
  · obtain rfl := Except.ok.inj formed
    exact planned

/-- The slices together are no longer than the window was to be. -/
theorem Options.length_le {options : Options} {labels : List String} {form : Form}
    (formed : options.form labels = .ok form) :
    form.plan.slice.nanos * form.plan.slices ≤ options.maxAge.nanos := by
  rw [(Options.plan_eq_ok (Options.form_eq_ok formed)).2]
  exact Nat.div_mul_le_self options.maxAge.nanos options.ageBuckets

/-- What a snapshot shows at an instant up to which a summary was used: the count and the sum of
all that was observed, and the quantiles of the values of the live entries. An entry is live
until the window's length less a slice has passed since its own slice's time was over. -/
theorem snapshot_shows_live {options : Options} {labels : List String} {form : Form}
    (formed : options.form labels = .ok form)
    (whole : 1 ≤ options.maxAge.nanos / options.ageBuckets)
    {start now : Instant} {uses : List (Instant × Use)}
    (forward : Journal.Forward start uses now) :
    (now.nanos + options.maxAge.nanos / options.ageBuckets < Instant.limit →
      ∃ journal shown later, Journal.run form start uses = .ok journal ∧
        journal.summary.snapshot now = .ok (shown, later)) ∧
    ∀ journal shown later, Journal.run form start uses = .ok journal →
      journal.summary.snapshot now = .ok (shown, later) →
      journal.entries.map (fun e => (e.made, e.value)) = observations uses ∧
      shown.count = (observations uses).length ∧
      shown.sum = ((observations uses).map (·.2)).foldl Binary64.add .zero ∧
      (Journal.Fits options.maxSamples journal.entries →
        (shown.quantiles = ((options.objectives.map (·.1)).mergeSort Binary64.atMost).map fun q =>
          (q, nearestRank
            ((valuesOf (Entry.isLive form.plan now) journal.entries).mergeSort
              Binary64.atMost).toArray q)) ∧
        ∀ e ∈ journal.entries,
          (e.isLive form.plan now ↔ now.nanos <
            e.deadline.nanos + (options.ageBuckets - 1) *
              (options.maxAge.nanos / options.ageBuckets)) ∧
          ((now.since e.made).nanos <
            (options.ageBuckets - 1) * (options.maxAge.nanos / options.ageBuckets) →
              e.isLive form.plan now) ∧
          (options.ageBuckets * (options.maxAge.nanos / options.ageBuckets) ≤
            (now.since e.made).nanos → ¬ e.isLive form.plan now)) := by
  obtain ⟨nonempty, shape⟩ := Options.plan_eq_ok (Options.form_eq_ok formed)
  have slice : form.plan.slice.nanos = options.maxAge.nanos / options.ageBuckets := by rw [shape]
  have slices : form.plan.slices = options.ageBuckets := by rw [shape]
  have capacity : form.plan.capacity = options.maxSamples := by rw [shape]
  have quantiles : form.plan.quantiles =
      (options.objectives.map (·.1)).mergeSort Binary64.atMost := by rw [shape]
  rw [← slice] at whole
  rw [← slices] at nonempty
  rw [← slice, ← slices, ← capacity, ← quantiles]
  constructor
  · intro room
    obtain ⟨journal, ran⟩ := Journal.run_timely forward room
    rw [← (Journal.run_complete ran).form_eq] at room
    obtain ⟨shown, later, read⟩ := snapshot_timely room
    exact ⟨journal, shown, later, ran, read⟩
  · intro journal shown later ran read
    have complete := Journal.run_complete ran
    obtain ⟨count, sum, -, -⟩ := snapshot_totals read
    refine ⟨complete.logged, ?_, ?_, fun fits => ?_⟩
    · rw [count, complete.count, ← complete.logged, List.length_map]
    · rw [sum, complete.sum, ← complete.logged, List.map_map]
      rfl
    · obtain ⟨last, le, recalls⟩ := Journal.run_recalls whole nonempty forward ran fits
      obtain ⟨-, rotated, rfl⟩ := snapshot_eq_ok read
      rw [Journal.Recalls, complete.form_eq] at recalls
      rw [complete.form_eq] at rotated ⊢
      have turned := recalls.rotate whole le rotated
      constructor
      · rw [Window.read, turned.sorted_eq whole]
      · intro e mem
        exact ⟨Entry.isLive_iff, turned.isLive_of_young mem, turned.not_isLive_of_old nonempty mem⟩

/-- A window of two slices of ten nanoseconds each. -/
def brief : Options := { name := "w", help := "h", maxAge := ⟨20⟩, ageBuckets := 2, maxSamples := 2 }

def briefForm : Form :=
  { description := { name := "w", help := "h" }, plan := { slice := ⟨10⟩, slices := 2, capacity := 2 } }

theorem brief_form : brief.form [] = .ok briefForm := by
  have planned : brief.plan = .ok briefForm.plan := by
    simp [Options.plan, brief, briefForm]
  rw [Options.form, planned]
  rfl

def briefUses : List (Instant × Use) :=
  [(⟨1⟩, .observe 7 .one), (⟨12⟩, .collect), (⟨15⟩, .observe 9 .infinity), (⟨20⟩, .snapshot)]

theorem snapshot_shows_live_in_brief_window :
    brief.form [] = .ok briefForm ∧
    ∃ journal shown later,
      Journal.run briefForm ⟨0⟩ briefUses = .ok journal ∧
      journal.summary.snapshot ⟨21⟩ = .ok (shown, later) ∧ shown.count = 2 ∧
      ∀ e ∈ journal.entries, e.isLive briefForm.plan ⟨21⟩ ↔ e.value = .infinity := by
  have forward : Journal.Forward ⟨0⟩ briefUses ⟨21⟩ := by
    unfold Journal.Forward
    decide
  obtain ⟨returns, shows⟩ := snapshot_shows_live brief_form (by decide) forward
  obtain ⟨journal, shown, later, ran, read⟩ := returns (by decide)
  obtain ⟨logged, count, -, live⟩ := shows journal shown later ran read
  have few : journal.entries.length = brief.maxSamples := by
    rw [← List.length_map, logged]
    rfl
  have fits : Journal.Fits brief.maxSamples journal.entries := fun deadline =>
    few ▸ List.countP_le_length
  refine ⟨brief_form, journal, shown, later, ran, read, count, fun e mem => ?_⟩
  obtain ⟨-, young, old⟩ := (live fits).2 e mem
  have made : (e.made, e.value) ∈ [(⟨1⟩, Binary64.one), (⟨15⟩, Binary64.infinity)] := by
    have listed := List.mem_map_of_mem (f := fun e : Entry => (e.made, e.value)) mem
    rwa [logged] at listed
  simp only [List.mem_cons, Prod.mk.injEq, List.not_mem_nil, or_false] at made
  rcases made with ⟨made, value⟩ | ⟨made, value⟩
  · rw [made] at old
    exact iff_of_false (old (by decide)) (by rw [value]; decide)
  · rw [made] at young
    exact iff_of_true (young (by decide)) value

end HedgedStore.Summary
