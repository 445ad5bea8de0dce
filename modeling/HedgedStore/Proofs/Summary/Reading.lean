import HedgedStore.Proofs.Summary.Journal

/-! A summary that is read more often than before. The further reads move its window on, and may
spare it a fresh start or bring one about. They change no count and no sum that anyone is shown, and
no quantile either, as long as the window does not lie idle for its whole length without them. -/
namespace HedgedStore.Summary

/-- What a use is answered with. -/
inductive Reply
  | done
  | snapshot (shown : Snapshot)
  | family (shown : Family)
deriving DecidableEq, Repr

/-- The counts and the sums that a reply shows. -/
def Reply.totals : Reply → List (Nat × Binary64)
  | .done => []
  | .snapshot shown => [(shown.count, shown.sum)]
  | .family shown => shown.series.filterMap fun series =>
    match series.reading with
    | .summary shown => some (shown.count, shown.sum)
    | .counter _ => none

inductive Read
  | snapshot
  | collect
deriving DecidableEq, Repr

def Read.use : Read → Use
  | .snapshot => .snapshot
  | .collect => .collect

/-- What is done with a summary, and with one that is read more often. -/
inductive Doing
  /-- A use of both. Where it observes a number, the other one draws a word of its own. -/
  | both (use : Use) (word : Nat)
  /-- A read of the other one alone. -/
  | further (read : Read)
deriving DecidableEq, Repr

def Use.redrawn (word : Nat) : Use → Use
  | .observe _ x => .observe word x
  | .snapshot => .snapshot
  | .collect => .collect

/-- The uses without the further reads. -/
def plainUses (script : List (Instant × Doing)) : List (Instant × Use) :=
  script.filterMap fun
    | (now, .both use _) => some (now, use)
    | (_, .further _) => none

/-- The uses with the further reads among them. -/
def allUses (script : List (Instant × Doing)) : List (Instant × Use) :=
  script.map fun
    | (now, .both use word) => (now, use.redrawn word)
    | (now, .further read) => (now, read.use)

section Script

variable (now : Instant) (use : Use) (word : Nat) (read : Read) (script : List (Instant × Doing))

@[simp]
theorem plainUses_both :
    plainUses ((now, .both use word) :: script) = (now, use) :: plainUses script := rfl

@[simp]
theorem plainUses_further : plainUses ((now, .further read) :: script) = plainUses script := rfl

@[simp]
theorem allUses_both :
    allUses ((now, .both use word) :: script) = (now, use.redrawn word) :: allUses script := rfl

@[simp]
theorem allUses_further :
    allUses ((now, .further read) :: script) = (now, read.use) :: allUses script := rfl

end Script

/-- Out of the replies to all uses, those that are not to further reads. -/
def plainReplies : List (Instant × Doing) → List Reply → List Reply
  | (_, .both _ _) :: script, reply :: replies => reply :: plainReplies script replies
  | (_, .further _) :: script, _ :: replies => plainReplies script replies
  | _, _ => []

/-- What a summary that has been moved on shows to a use. -/
def shows (summary : Summary) : Use → Reply
  | .observe _ _ => .done
  | .snapshot => .snapshot (summary.window.read summary.form.plan)
  | .collect => .family {
      name := summary.form.description.name, help := summary.form.description.help, kind := .summary
      series := [{ reading := .summary (summary.window.read summary.form.plan) }] }

namespace Journal

def answer (journal : Journal) : Instant × Use → Except Fault (Reply × Journal)
  | (now, .observe word x) => do
    let later ← journal.step (now, .observe word x)
    return (.done, later)
  | (now, .snapshot) => do
    let (shown, later) ← journal.summary.snapshot now
    return (.snapshot shown, ⟨later, journal.entries⟩)
  | (now, .collect) => do
    let (shown, later) ← journal.summary.collect now
    return (.family shown, ⟨later, journal.entries⟩)

def answers (journal : Journal) : List (Instant × Use) → Except Fault (List Reply × Journal)
  | [] => .ok ([], journal)
  | use :: uses => do
    let (reply, next) ← journal.answer use
    let (replies, last) ← next.answers uses
    return (reply :: replies, last)

/-- A summary created at `start` and used from then on, with the replies that its users get. -/
def told (form : Form) (start : Instant) (uses : List (Instant × Use)) :
    Except Fault (List Reply × Journal) := do
  answers ⟨← Summary.create form start, []⟩ uses

/-- No use finds that the window has lain idle for its whole length. -/
def Busy (form : Form) (start : Instant) (uses : List (Instant × Use)) : Prop :=
  ∀ earlier use rest journal, uses = earlier ++ use :: rest →
    run form start earlier = .ok journal →
    use.1.nanos < journal.summary.window.deadline.nanos + form.plan.slice.nanos * form.plan.slices

variable {form : Form} {journal later : Journal} {use : Instant × Use} {uses : List (Instant × Use)}
  {reply : Reply} {replies : List Reply} {start : Instant}

theorem snapshot_shows {summary after : Summary} {now : Instant} {shown : Snapshot}
    (read : summary.snapshot now = .ok (shown, after)) :
    shown = after.window.read after.form.plan := by
  obtain ⟨form, -, rfl⟩ := snapshot_eq_ok read
  rw [form]

theorem answer_eq_ok : journal.answer use = .ok (reply, later) ↔
    journal.step use = .ok later ∧ reply = later.summary.shows use.2 := by
  obtain ⟨now, use⟩ := use
  cases use with
  | observe word x =>
    simp only [answer, shows, bind_eq_ok, pure_eq_ok, Except.ok.injEq, Prod.mk.injEq]
    constructor
    · rintro ⟨next, stepped, rfl, rfl⟩
      exact ⟨stepped, rfl⟩
    · rintro ⟨stepped, rfl⟩
      exact ⟨later, stepped, rfl, rfl⟩
  | snapshot =>
    simp only [answer, step, shows, bind_eq_ok, pure_eq_ok, Except.ok.injEq, Prod.mk.injEq,
      Prod.exists]
    constructor
    · rintro ⟨shown, next, read, rfl, rfl⟩
      exact ⟨⟨shown, next, read, rfl⟩, by rw [snapshot_shows read]⟩
    · rintro ⟨⟨shown, next, read, rfl⟩, rfl⟩
      exact ⟨shown, next, read, by rw [snapshot_shows read], rfl⟩
  | collect =>
    simp only [answer, step, Summary.collect, shows, bind_eq_ok, pure_eq_ok, Except.ok.injEq,
      Prod.mk.injEq, Prod.exists]
    constructor
    · rintro ⟨family, next, ⟨shown, _, read, rfl, rfl⟩, rfl, rfl⟩
      exact ⟨⟨_, _, ⟨shown, _, read, rfl, rfl⟩, rfl⟩, by rw [snapshot_shows read]⟩
    · rintro ⟨⟨family, next, ⟨shown, _, read, rfl, rfl⟩, rfl⟩, rfl⟩
      exact ⟨_, _, ⟨shown, _, read, rfl, rfl⟩, by rw [snapshot_shows read], rfl⟩

theorem answers_cons_eq_ok : journal.answers (use :: uses) = .ok (replies, later) ↔
    ∃ next rest, journal.step use = .ok next ∧ next.answers uses = .ok (rest, later) ∧
      replies = next.summary.shows use.2 :: rest := by
  simp only [answers, bind_eq_ok, pure_eq_ok, Except.ok.injEq, Prod.mk.injEq, Prod.exists,
    answer_eq_ok]
  constructor
  · rintro ⟨reply, next, ⟨stepped, rfl⟩, rest, _, answered, rfl, rfl⟩
    exact ⟨next, rest, stepped, answered, rfl⟩
  · rintro ⟨next, rest, stepped, answered, rfl⟩
    exact ⟨_, next, ⟨stepped, rfl⟩, rest, later, answered, rfl, rfl⟩

/-- The replies come along with the run. -/
theorem answers_of_steps (ran : uses.foldlM step journal = .ok later) :
    ∃ replies, journal.answers uses = .ok (replies, later) := by
  induction uses generalizing journal with
  | nil =>
    obtain rfl := Except.ok.inj ran
    exact ⟨[], rfl⟩
  | cons use uses ih =>
    obtain ⟨next, stepped, ran⟩ := bind_eq_ok.mp ran
    obtain ⟨rest, answered⟩ := ih ran
    exact ⟨_, answers_cons_eq_ok.mpr ⟨next, rest, stepped, answered, rfl⟩⟩

theorem steps_of_answers (answered : journal.answers uses = .ok (replies, later)) :
    uses.foldlM step journal = .ok later := by
  induction uses generalizing journal replies with
  | nil =>
    obtain ⟨rfl, rfl⟩ := Prod.mk.inj (Except.ok.inj answered)
    rfl
  | cons use uses ih =>
    obtain ⟨next, rest, stepped, answered, -⟩ := answers_cons_eq_ok.mp answered
    exact bind_eq_ok.mpr ⟨next, stepped, ih answered⟩

end Journal

/-! The count and the sum: a use changes them by what it observes. -/

theorem totals_shows (summary : Summary) (use : Use) : (summary.shows use).totals =
    match use with
    | .observe _ _ => []
    | .snapshot | .collect => [(summary.window.count, summary.window.sum)] := by
  cases use <;> rfl

theorem shows_redrawn (summary : Summary) (use : Use) (word : Nat) :
    summary.shows (use.redrawn word) = summary.shows use := by
  cases use <;> rfl

theorem observations_redrawn (now : Instant) (use : Use) (word : Nat) :
    observations [(now, use.redrawn word)] = observations [(now, use)] := by
  cases use <;> rfl

theorem observations_read (now : Instant) (read : Read) : observations [(now, read.use)] = [] := by
  cases read <;> rfl

/-- Two summaries of this form with the same count and the same sum. -/
structure SameTotals (form : Form) (plain other : Journal) : Prop where
  plain_form : plain.summary.form = form
  other_form : other.summary.form = form
  count : other.summary.window.count = plain.summary.window.count
  sum : other.summary.window.sum = plain.summary.window.sum

section Alike

variable {form : Form} {plain other plain_next other_next : Journal} {now later : Instant}
  {use : Use} {word : Nat} {read : Read}

theorem SameTotals.both (same : SameTotals form plain other)
    (plain_stepped : plain.step (now, use) = .ok plain_next)
    (other_stepped : other.step (now, use.redrawn word) = .ok other_next) :
    SameTotals form plain_next other_next := by
  obtain ⟨plain_count, plain_sum⟩ := Journal.step_totals plain_stepped
  obtain ⟨other_count, other_sum⟩ := Journal.step_totals other_stepped
  refine ⟨(Journal.step_eq_ok plain_stepped).1.trans same.plain_form,
    (Journal.step_eq_ok other_stepped).1.trans same.other_form, ?_, ?_⟩
  · rw [plain_count, other_count, observations_redrawn, same.count]
  · rw [plain_sum, other_sum, observations_redrawn, same.sum]

theorem SameTotals.further (same : SameTotals form plain other)
    (stepped : other.step (now, read.use) = .ok other_next) :
    SameTotals form plain other_next := by
  obtain ⟨count, sum⟩ := Journal.step_totals stepped
  rw [observations_read] at count sum
  exact ⟨same.plain_form, (Journal.step_eq_ok stepped).1.trans same.other_form,
    count.trans same.count, sum.trans same.sum⟩

theorem SameTotals.shows (same : SameTotals form plain other) (use : Use) :
    (other.summary.shows use).totals = (plain.summary.shows use).totals := by
  rw [totals_shows, totals_shows, same.count, same.sum]

end Alike

/-! The deadlines: windows that began together stay on one grid of slices. -/

namespace Window

variable {plan : Plan} {window next plain other : Window} {now : Instant} {entries : List Entry}

theorem Turned.on_grid (turned : Turned plan window now next)
    (busy : now.nanos < window.deadline.nanos + plan.slice.nanos * plan.slices) :
    ∃ turns, next.deadline.nanos = window.deadline.nanos + plan.slice.nanos * turns := by
  cases turned with
  | still early => exact ⟨0, rfl⟩
  | afresh idle => omega
  | onward turns => exact ⟨turns, rfl⟩

/-- A grid has one place within a slice ahead of an instant. -/
theorem grid_unique {start slice now a b : Nat} (a_ahead : now < start + slice * a)
    (a_near : start + slice * a ≤ now + slice) (b_ahead : now < start + slice * b)
    (b_near : start + slice * b ≤ now + slice) : slice * a = slice * b := by
  rcases Nat.lt_trichotomy a b with less | rfl | less
  · have apart : slice * (a + 1) ≤ slice * b := Nat.mul_le_mul_left slice less
    rw [Nat.mul_succ] at apart
    omega
  · rfl
  · have apart : slice * (b + 1) ≤ slice * a := Nat.mul_le_mul_left slice less
    rw [Nat.mul_succ] at apart
    omega

/-- Windows on one grid meet when they are moved on to the same instant. -/
theorem deadlines_meet {plain_next other_next : Window} {turns : Nat}
    (grid : other.deadline.nanos = plain.deadline.nanos + plan.slice.nanos * turns)
    (busy : now.nanos < plain.deadline.nanos + plan.slice.nanos * plan.slices)
    (plain_rotated : plain.rotate plan now = some plain_next)
    (other_rotated : other.rotate plan now = some other_next)
    (plain_kept : plain_next.Recalls plan entries now)
    (other_kept : other_next.Recalls plan entries now) :
    other_next.deadline = plain_next.deadline := by
  obtain ⟨a, plain_deadline⟩ := (turned plain_rotated).on_grid busy
  obtain ⟨b, other_deadline⟩ := (turned other_rotated).on_grid (by omega)
  have plain_running := plain_kept.running
  have other_running := other_kept.running
  have joined : other_next.deadline.nanos =
      plain.deadline.nanos + plan.slice.nanos * (turns + b) := by
    rw [other_deadline, grid, Nat.mul_add]
    omega
  have place := grid_unique (joined ▸ other_running.1) (joined ▸ other_running.2)
    (plain_deadline ▸ plain_running.1) (plain_deadline ▸ plain_running.2)
  have nanos : other_next.deadline.nanos = plain_next.deadline.nanos := by
    rw [joined, plain_deadline, place]
  exact congrArg Instant.mk nanos

/-- What is read is told by the log, the count and the sum. -/
theorem read_eq (positive : 0 < plan.slice.nanos) (plain_recalls : plain.Recalls plan entries now)
    (other_recalls : other.Recalls plan entries now) (count : other.count = plain.count)
    (sum : other.sum = plain.sum) : other.read plan = plain.read plan := by
  rw [Window.read, Window.read, plain_recalls.sorted_eq positive,
    other_recalls.sorted_eq positive, count, sum]

end Window

/-- A journal and one with further reads in between: they have the same log, and their windows are
on one grid, unless the first one has lain idle for its whole length. -/
structure Abreast (form : Form) (plain other : Journal) (now : Instant) : Prop where
  entries : other.entries = plain.entries
  plain_recalls : ∃ last : Instant, last.nanos ≤ now.nanos ∧
    plain.summary.window.Recalls form.plan plain.entries last
  other_recalls : other.summary.window.Recalls form.plan plain.entries now
  grid : (∃ turns, other.summary.window.deadline.nanos =
      plain.summary.window.deadline.nanos + form.plan.slice.nanos * turns) ∨
    plain.summary.window.deadline.nanos + form.plan.slice.nanos * form.plan.slices ≤ now.nanos

section Alike

variable {form : Form} {plain other plain_next other_next : Journal} {now later : Instant}
  {use : Use} {word : Nat} {read : Read}

theorem Abreast.both (abreast : Abreast form plain other now) (same : SameTotals form plain other)
    (positive : 0 < form.plan.slice.nanos) (nonempty : 0 < form.plan.slices)
    (le : now.nanos ≤ later.nanos)
    (busy : later.nanos <
      plain.summary.window.deadline.nanos + form.plan.slice.nanos * form.plan.slices)
    (plain_stepped : plain.step (later, use) = .ok plain_next)
    (other_stepped : other.step (later, use.redrawn word) = .ok other_next)
    (fits : Journal.Fits form.plan.capacity plain_next.entries) :
    Abreast form plain_next other_next later ∧
      plain_next.summary.window.Recalls form.plan plain_next.entries later := by
  obtain ⟨rfl, other_form⟩ : plain.summary.form = form ∧ other.summary.form = form :=
    ⟨same.plain_form, same.other_form⟩
  obtain ⟨plain_turned, plain_rotated, plain_deadline, plain_entries⟩ :=
    Journal.step_logs plain_stepped
  obtain ⟨other_turned, other_rotated, other_deadline, other_entries⟩ :=
    Journal.step_logs other_stepped
  obtain ⟨last, reached, recalls⟩ := abreast.plain_recalls
  rw [other_form] at other_rotated
  -- The plain window is not idle, so neither has left the grid yet.
  obtain ⟨turns, grid⟩ := abreast.grid.resolve_right (by omega)
  have meet : other_turned.deadline = plain_turned.deadline :=
    Window.deadlines_meet grid busy plain_rotated other_rotated
      (recalls.rotate positive (reached.trans le) plain_rotated)
      (abreast.other_recalls.rotate positive le other_rotated)
  have entries : other_next.entries = plain_next.entries := by
    rw [other_entries, plain_entries, observations_redrawn, meet, abreast.entries]
  have plain_next_recalls : plain_next.summary.window.Recalls plain.summary.form.plan
      plain_next.entries later :=
    Journal.step_recalls rfl positive nonempty recalls (reached.trans le) plain_stepped fits
  have other_next_recalls : other_next.summary.window.Recalls plain.summary.form.plan
      other_next.entries later :=
    Journal.step_recalls other_form positive nonempty (abreast.entries ▸ abreast.other_recalls) le
      other_stepped (entries ▸ fits)
  refine ⟨⟨entries, ⟨later, Nat.le_refl _, plain_next_recalls⟩, entries ▸ other_next_recalls,
    .inl ⟨0, ?_⟩⟩, plain_next_recalls⟩
  rw [other_deadline, plain_deadline, meet]
  rfl

theorem Abreast.shows_eq (abreast : Abreast form plain other now)
    (same : SameTotals form plain other) (positive : 0 < form.plan.slice.nanos)
    (recalls : plain.summary.window.Recalls form.plan plain.entries now) (use : Use) :
    other.summary.shows use = plain.summary.shows use := by
  have read := Window.read_eq positive recalls abreast.other_recalls same.count same.sum
  obtain ⟨rfl, form⟩ : plain.summary.form = form ∧ other.summary.form = form :=
    ⟨same.plain_form, same.other_form⟩
  cases use with
  | observe => rfl
  | snapshot => rw [shows, shows, form, read]
  | collect => rw [shows, shows, form, read]

/-- A further read leaves the other window on the grid, unless the first one has lain idle. -/
theorem Abreast.further (abreast : Abreast form plain other now)
    (same : SameTotals form plain other) (positive : 0 < form.plan.slice.nanos)
    (nonempty : 0 < form.plan.slices) (le : now.nanos ≤ later.nanos)
    (stepped : other.step (later, read.use) = .ok other_next)
    (fits : Journal.Fits form.plan.capacity plain.entries) :
    Abreast form plain other_next later := by
  obtain ⟨turned, rotated, deadline, logged⟩ := Journal.step_logs stepped
  rw [same.other_form] at rotated
  have entries : other_next.entries = plain.entries := by
    rw [logged, observations_read, List.map_nil, List.append_nil, abreast.entries]
  obtain ⟨last, reached, recalls⟩ := abreast.plain_recalls
  have other_recalls : other_next.summary.window.Recalls form.plan other_next.entries later :=
    Journal.step_recalls same.other_form positive nonempty
      (abreast.entries ▸ abreast.other_recalls) le stepped (entries ▸ fits)
  refine ⟨entries, ⟨last, reached.trans le, recalls⟩, entries ▸ other_recalls, ?_⟩
  rcases abreast.grid with ⟨turns, grid⟩ | idle
  · by_cases busy : later.nanos <
        plain.summary.window.deadline.nanos + form.plan.slice.nanos * form.plan.slices
    · have other_busy : later.nanos <
          other.summary.window.deadline.nanos + form.plan.slice.nanos * form.plan.slices := by
        omega
      obtain ⟨more, onward⟩ := (Window.turned rotated).on_grid other_busy
      refine .inl ⟨turns + more, ?_⟩
      rw [deadline, onward, grid, Nat.mul_add]
      omega
    · exact .inr (Nat.le_of_not_lt busy)
  · exact .inr (idle.trans le)

end Alike

/-! Both runs from beginning to end. -/

theorem Journal.Busy.head {form : Form} {start : Instant} {done uses : List (Instant × Use)}
    {use : Instant × Use} {journal : Journal} (busy : Busy form start (done ++ use :: uses))
    (ran : run form start done = .ok journal) :
    use.1.nanos <
      journal.summary.window.deadline.nanos + form.plan.slice.nanos * form.plan.slices :=
  busy done use uses journal rfl ran

theorem Journal.run_snoc {form : Form} {start : Instant} {done : List (Instant × Use)}
    {use : Instant × Use} {journal later : Journal} (ran : run form start done = .ok journal)
    (stepped : journal.step use = .ok later) : run form start (done ++ [use]) = .ok later := by
  obtain ⟨summary, created, used⟩ := bind_eq_ok.mp ran
  refine bind_eq_ok.mpr ⟨summary, created, ?_⟩
  rw [List.foldlM_append]
  exact bind_eq_ok.mpr ⟨journal, used, bind_eq_ok.mpr ⟨later, stepped, rfl⟩⟩

theorem replies_alike {form : Form} (positive : 0 < form.plan.slice.nanos)
    (nonempty : 0 < form.plan.slices) {start last now : Instant} {done : List (Instant × Use)}
    {script : List (Instant × Doing)} {plain other plain_last other_last : Journal}
    {replies others : List Reply} (ran : Journal.run form start done = .ok plain)
    (forward : Journal.Forward last (allUses script) now)
    (same : SameTotals form plain other)
    (plain_told : plain.answers (plainUses script) = .ok (replies, plain_last))
    (other_told : other.answers (allUses script) = .ok (others, other_last)) :
    (plainReplies script others).map Reply.totals = replies.map Reply.totals ∧
    (Abreast form plain other last → Journal.Busy form start (done ++ plainUses script) →
      Journal.Fits form.plan.capacity plain_last.entries →
      plainReplies script others = replies) := by
  induction script generalizing done last plain other replies others with
  | nil =>
    obtain ⟨rfl, -⟩ := Prod.mk.inj (Except.ok.inj plain_told)
    obtain ⟨rfl, -⟩ := Prod.mk.inj (Except.ok.inj other_told)
    exact ⟨rfl, fun _ _ _ => rfl⟩
  | cons doing script ih =>
    obtain ⟨later, ⟨use, word⟩ | ⟨read⟩⟩ := doing
    · rw [plainUses_both] at plain_told ⊢
      rw [allUses_both] at forward other_told
      obtain ⟨plain_next, plain_rest, plain_stepped, plain_onward, rfl⟩ :=
        Journal.answers_cons_eq_ok.mp plain_told
      obtain ⟨other_next, other_rest, other_stepped, other_onward, rfl⟩ :=
        Journal.answers_cons_eq_ok.mp other_told
      obtain ⟨le, forward⟩ := forward.head
      have same_next := same.both plain_stepped other_stepped
      obtain ⟨totals, equal⟩ :=
        ih (Journal.run_snoc ran plain_stepped) forward same_next plain_onward other_onward
      rw [plainReplies, shows_redrawn]
      constructor
      · rw [List.map_cons, List.map_cons, totals, same_next.shows]
      · intro abreast busy fits
        have fits_next :=
          fits.of_prefix (Journal.steps_extend (Journal.steps_of_answers plain_onward))
        obtain ⟨abreast_next, recalls⟩ := abreast.both same positive nonempty le (busy.head ran)
          plain_stepped other_stepped fits_next
        rw [List.append_cons] at busy
        rw [equal abreast_next busy fits, abreast_next.shows_eq same_next positive recalls]
    · rw [plainUses_further] at plain_told ⊢
      rw [allUses_further] at forward other_told
      obtain ⟨other_next, other_rest, other_stepped, other_onward, rfl⟩ :=
        Journal.answers_cons_eq_ok.mp other_told
      obtain ⟨le, forward⟩ := forward.head
      obtain ⟨totals, equal⟩ := ih ran forward (same.further other_stepped) plain_told other_onward
      rw [plainReplies]
      refine ⟨totals, fun abreast busy fits => ?_⟩
      have fits_here := fits.of_prefix (Journal.steps_extend (Journal.steps_of_answers plain_told))
      exact equal (abreast.further same positive nonempty le other_stepped fits_here) busy fits

theorem plainUses_sublist (script : List (Instant × Doing)) :
    ((plainUses script).map (·.1)).Sublist ((allUses script).map (·.1)) := by
  induction script with
  | nil => exact .slnil
  | cons doing script ih =>
    obtain ⟨now, ⟨use, word⟩ | ⟨read⟩⟩ := doing
    · exact ih.cons_cons now
    · exact ih.cons now

theorem Journal.Forward.plainUses {script : List (Instant × Doing)} {start now : Instant}
    (forward : Forward start (allUses script) now) : Forward start (plainUses script) now :=
  forward.sublist (((plainUses_sublist script).append (.refl [now])).cons_cons start)

theorem told_returns {form : Form} {start now : Instant} {uses : List (Instant × Use)}
    (forward : Journal.Forward start uses now)
    (room : now.nanos + form.plan.slice.nanos < Instant.limit) :
    ∃ replies journal, Journal.told form start uses = .ok (replies, journal) := by
  obtain ⟨journal, ran⟩ := Journal.run_timely forward room
  obtain ⟨summary, created, used⟩ := bind_eq_ok.mp ran
  obtain ⟨replies, answered⟩ := Journal.answers_of_steps used
  exact ⟨replies, journal, bind_eq_ok.mpr ⟨summary, created, answered⟩⟩

theorem run_of_told {form : Form} {start : Instant} {uses : List (Instant × Use)}
    {replies : List Reply} {journal : Journal}
    (told : Journal.told form start uses = .ok (replies, journal)) :
    Journal.run form start uses = .ok journal := by
  obtain ⟨summary, created, answered⟩ := bind_eq_ok.mp told
  exact bind_eq_ok.mpr ⟨summary, created, Journal.steps_of_answers answered⟩

/-- Whatever is done with a summary and however often it is read in between, the replies show the
same counts and sums. They are the same replies if no use comes when the window has lain idle for
its whole length, and no slice gets more numbers than it can hold, whichever words are drawn. -/
theorem further_reads_change_nothing {form : Form} (whole : 1 ≤ form.plan.slice.nanos)
    (nonempty : 1 ≤ form.plan.slices) {start now : Instant} {script : List (Instant × Doing)}
    (forward : Journal.Forward start (allUses script) now) :
    (now.nanos + form.plan.slice.nanos < Instant.limit →
      (∃ replies plain, Journal.told form start (plainUses script) = .ok (replies, plain)) ∧
      ∃ others other, Journal.told form start (allUses script) = .ok (others, other)) ∧
    ∀ replies plain others other,
      Journal.told form start (plainUses script) = .ok (replies, plain) →
      Journal.told form start (allUses script) = .ok (others, other) →
      (plainReplies script others).map Reply.totals = replies.map Reply.totals ∧
      (Journal.Busy form start (plainUses script) →
        Journal.Fits form.plan.capacity plain.entries → plainReplies script others = replies) := by
  refine ⟨fun room => ⟨told_returns forward.plainUses room, told_returns forward room⟩, ?_⟩
  intro replies plain others other plain_told other_told
  obtain ⟨summary, created, plain_answered⟩ := bind_eq_ok.mp plain_told
  obtain ⟨again, created_again, other_answered⟩ := bind_eq_ok.mp other_told
  obtain rfl : summary = again := Except.ok.inj (created.symm.trans created_again)
  obtain ⟨rfl, made⟩ := create_eq_ok created
  have recalls := Window.Recalls.create whole made
  have ran : Journal.run summary.form start [] = .ok ⟨summary, []⟩ :=
    bind_eq_ok.mpr ⟨summary, created, rfl⟩
  obtain ⟨totals, equal⟩ :=
    replies_alike whole nonempty ran forward ⟨rfl, rfl, rfl, rfl⟩ plain_answered other_answered
  exact ⟨totals, fun busy fits =>
    equal ⟨rfl, ⟨start, Nat.le_refl _, recalls⟩, recalls, .inl ⟨0, rfl⟩⟩ busy fits⟩

/-- The least and the greatest number of a window of two slices of ten nanoseconds each. -/
def rangeForm : Form :=
  { description := { name := "w", help := "h" }
    plan := { quantiles := [.zero, .one], slice := ⟨10⟩, slices := 2, capacity := 2 } }

def readOften : List (Instant × Doing) :=
  [(⟨1⟩, .both (.observe 7 .one) 9), (⟨4⟩, .further .snapshot), (⟨12⟩, .both .snapshot 0),
    (⟨15⟩, .further .collect), (⟨16⟩, .both (.observe 3 .infinity) 4), (⟨19⟩, .both .collect 0)]

theorem further_reads_change_nothing_in_range :
    ∃ replies plain others other,
      Journal.told rangeForm ⟨0⟩ (plainUses readOften) = .ok (replies, plain) ∧
      Journal.told rangeForm ⟨0⟩ (allUses readOften) = .ok (others, other) ∧
      Journal.Fits rangeForm.plan.capacity plain.entries ∧
      Journal.Busy rangeForm ⟨0⟩ (plainUses readOften) ∧
      plainReplies readOften others = replies := by
  have forward : Journal.Forward ⟨0⟩ (allUses readOften) ⟨19⟩ := by
    unfold Journal.Forward
    decide
  have whole : 1 ≤ rangeForm.plan.slice.nanos := by decide
  obtain ⟨returns, replies_same⟩ := further_reads_change_nothing whole (by decide) forward
  obtain ⟨⟨replies, plain, plain_told⟩, others, other, other_told⟩ := returns (by decide)
  have few : plain.entries.length = rangeForm.plan.capacity := by
    rw [← List.length_map, (Journal.run_complete (run_of_told plain_told)).logged]
    rfl
  have fits : Journal.Fits rangeForm.plan.capacity plain.entries := fun deadline =>
    few ▸ List.countP_le_length
  have busy : Journal.Busy rangeForm ⟨0⟩ (plainUses readOften) := by
    intro earlier use rest journal split _
    have early : ∀ use ∈ plainUses readOften,
        use.1.nanos < rangeForm.plan.slice.nanos * rangeForm.plan.slices := by decide
    exact Nat.lt_of_lt_of_le (early use (by simp [split])) (Nat.le_add_left _ _)
  exact ⟨replies, plain, others, other, plain_told, other_told, fits, busy,
    (replies_same replies plain others other plain_told other_told).2 busy fits⟩

end HedgedStore.Summary
