import HedgedStore.Proofs.Summary.Series

/-! What the metrics say about the requests that were answered: how many there were with each method
and status, and how long each of them took. Both are told by the same label values, and what is
recorded under some of them leaves all the others alone. -/
namespace HedgedStore

namespace CounterVec

variable {counters : CounterVec} {values : List String} {n : Nat}

theorem find_add : (counters.add values n).find? =
    Function.update counters.find? values (some ((counters.find? values).getD {} |>.add n)) :=
  Labelled.find_insert counters values _

theorem total_add (other : List String) : (counters.add values n).total other =
    counters.total other + if other = values then n else 0 := by
  rw [total, find_add]
  by_cases own : other = values
  · subst own
    rw [Function.update_self, if_pos rfl]
    rfl
  · rw [Function.update_of_ne own, if_neg own, Nat.add_zero, total]

end CounterVec

namespace SummaryVec

open Summary (Snapshot Window)

variable {vec later : SummaryVec} {values : List String} {now : Instant}

/-- How many numbers have been observed in the series with these values. -/
def count (vec : SummaryVec) (values : List String) : Nat :=
  ((vec.find? values).map (·.count)).getD 0

theorem enter_count {window : Window} {entered : SummaryVec}
    (enters : vec.enter now values = .ok (window, entered)) : window.count = vec.count values := by
  rcases enter_eq_ok enters with ⟨found, -⟩ | ⟨absent, created, -⟩
  · simp [count, found]
  · simp [count, absent, (Window.create_totals created).1]

theorem observe_find {word : Nat} {x : Binary64}
    (fits : values.length = vec.form.description.labels.length)
    (observed : vec.observe now values word x = .ok later) :
    ∃ next, later.find? = Function.update vec.find? values (some next) ∧
      next.count = vec.count values + 1 := by
  obtain ⟨window, entered, next, enters, moved, rfl⟩ := observe_eq_ok fits observed
  obtain ⟨turned, rotated, rfl⟩ := Option.map_eq_some_iff.mp moved
  refine ⟨_, put_of_entered enters _, ?_⟩
  rw [(Window.store_totals _ word x turned).1, (Window.rotate_totals rotated).1,
    enter_count enters]

theorem observe_count {word : Nat} {x : Binary64}
    (fits : values.length = vec.form.description.labels.length)
    (observed : vec.observe now values word x = .ok later) (other : List String) :
    later.count other = vec.count other + if other = values then 1 else 0 := by
  obtain ⟨next, moved, grown⟩ := observe_find fits observed
  rw [count, moved]
  by_cases own : other = values
  · subst own
    rw [Function.update_self, if_pos rfl, ← grown]
    rfl
  · rw [Function.update_of_ne own, if_neg own, Nat.add_zero, count]

theorem snapshot_count {shown : Snapshot}
    (fits : values.length = vec.form.description.labels.length)
    (read : vec.snapshot now values = .ok (shown, later)) : shown.count = vec.count values := by
  obtain ⟨window, entered, next, enters, moved, -⟩ := snapshot_eq_ok fits read
  obtain ⟨turned, rotated, seen⟩ := Option.map_eq_some_iff.mp moved
  obtain ⟨rfl, rfl⟩ := Prod.mk.inj seen
  exact (Window.rotate_totals rotated).1.trans (enter_count enters)

end SummaryVec

/-- An answer, as it is recorded. -/
structure Receipt where
  method : String
  status : Nat
  came : Instant
  took : Duration
deriving DecidableEq, Repr

namespace Receipt

def values (receipt : Receipt) : List String := [receipt.method, toString receipt.status]

theorem values_eq_iff {receipt : Receipt} {method : String} {status : Nat} :
    receipt.values = [method, toString status] ↔
      receipt.method = method ∧ receipt.status = status := by
  constructor
  · intro same
    obtain ⟨method_eq, shown⟩ := List.cons.inj same
    have digits := congrArg String.toList (List.cons.inj shown).1
    rw [Nat.toString_eq_repr, Nat.toString_eq_repr, Nat.toList_repr, Nat.toList_repr] at digits
    refine ⟨method_eq, ?_⟩
    rw [← Nat.ofDigitChars_ten_toDigits (n := receipt.status), digits,
      Nat.ofDigitChars_ten_toDigits]
  · rintro ⟨rfl, rfl⟩
    rfl

/-- The observation of the time that the answer took. -/
def IsUse (receipt : Receipt) (use : Instant × SummaryVec.Use) : Prop :=
  ∃ word, use = (receipt.came, .observe receipt.values word receipt.took.seconds)

end Receipt

namespace StoreMetrics

open Summary (Fault)

/-- What was recorded is these answers, in this order. -/
structure Records (metrics : StoreMetrics) (receipts : List Receipt) : Prop where
  totals : ∀ values, metrics.requests.total values = receipts.countP (·.values = values)
  counts : ∀ values, metrics.durations.count values = receipts.countP (·.values = values)
  seen : ∀ values, metrics.requests.find? values ≠ none ↔
    ∃ receipt ∈ receipts, receipt.values = values
  timed : ∀ values, metrics.durations.find? values ≠ none ↔
    ∃ receipt ∈ receipts, receipt.values = values
  uses : ∃ uses, List.Forall₂ Receipt.IsUse receipts uses ∧
    SummaryVec.run durationsForm uses = .ok metrics.durations

variable {metrics later : StoreMetrics} {receipts : List Receipt} {now : Instant} {word : Nat}

theorem create_records (created : create now = .ok metrics) : metrics.Records [] := by
  obtain ⟨sizes, -, created⟩ := bind_eq_ok.mp created
  obtain ⟨ratios, -, created⟩ := bind_eq_ok.mp created
  obtain rfl := Except.ok.inj created
  constructor
  case totals => exact fun values => rfl
  case counts => exact fun values => rfl
  case seen => simp [Labelled.find?]
  case timed => simp [SummaryVec.find?, Labelled.find?]
  case uses => exact ⟨[], .nil, rfl⟩

theorem Records.form_eq (records : metrics.Records receipts) :
    metrics.durations.form = durationsForm := by
  obtain ⟨uses, -, ran⟩ := records.uses
  exact (SummaryVec.run_kept rfl ran).form_eq

theorem Records.of_eq (records : metrics.Records receipts)
    (requests : later.requests = metrics.requests)
    (durations : later.durations = metrics.durations) : later.Records receipts := by
  constructor
  case totals => exact requests ▸ records.totals
  case counts => exact durations ▸ records.counts
  case seen => exact requests ▸ records.seen
  case timed => exact durations ▸ records.timed
  case uses => exact durations ▸ records.uses

theorem Records.fits (records : metrics.Records receipts) (receipt : Receipt) :
    receipt.values.length = metrics.durations.form.description.labels.length := by
  rw [records.form_eq]
  rfl

theorem find_update_ne_none {α : Type} {found : List String → Option α} {receipt : Receipt}
    {next : α}
    (known : ∀ values, found values ≠ none ↔ ∃ receipt ∈ receipts, receipt.values = values)
    (values : List String) : Function.update found receipt.values (some next) values ≠ none ↔
      ∃ other ∈ receipts ++ [receipt], other.values = values := by
  by_cases own : values = receipt.values
  · subst own
    rw [Function.update_self]
    simp
  · rw [Function.update_of_ne own, known values]
    simp [Ne.symm own]

theorem countP_snoc (receipt : Receipt) (values : List String) :
    (receipts ++ [receipt]).countP (·.values = values) =
      receipts.countP (·.values = values) + if values = receipt.values then 1 else 0 := by
  by_cases own : values = receipt.values
  · simp [own]
  · simp [own, Ne.symm own]

theorem measure_answered (receipt : Receipt) : metrics.measure receipt.came word
    (.answered receipt.method receipt.status receipt.took) = (do
      let durations ←
        metrics.durations.observe receipt.came receipt.values word receipt.took.seconds
      .ok { metrics with requests := metrics.requests.add receipt.values 1, durations }) := rfl

/-- An answer is recorded under its own label values, once in each family, and nowhere else. -/
theorem Records.measure (records : metrics.Records receipts) (receipt : Receipt)
    (measured : metrics.measure receipt.came word
      (.answered receipt.method receipt.status receipt.took) = .ok later) :
    later.Records (receipts ++ [receipt]) ∧ ∀ values, values ≠ receipt.values →
      later.requests.find? values = metrics.requests.find? values ∧
      later.durations.find? values = metrics.durations.find? values := by
  rw [measure_answered] at measured
  obtain ⟨durations, observed, measured⟩ := bind_eq_ok.mp measured
  obtain rfl := Except.ok.inj measured
  have fits := records.fits receipt
  obtain ⟨next, moved, -⟩ := SummaryVec.observe_find fits observed
  constructor
  · constructor
    case totals =>
      intro values
      rw [countP_snoc, ← records.totals]
      exact CounterVec.total_add values
    case counts =>
      intro values
      rw [countP_snoc, ← records.counts]
      exact SummaryVec.observe_count fits observed values
    case seen =>
      intro values
      rw [CounterVec.find_add]
      exact find_update_ne_none records.seen values
    case timed =>
      intro values
      rw [moved]
      exact find_update_ne_none records.timed values
    case uses =>
      obtain ⟨uses, noted, ran⟩ := records.uses
      refine ⟨uses ++ [(receipt.came, .observe receipt.values word receipt.took.seconds)],
        List.rel_append noted (.cons ⟨word, rfl⟩ .nil), ?_⟩
      rw [SummaryVec.run] at ran ⊢
      rw [List.foldlM_append, ran, ok_bind, List.foldlM_cons, SummaryVec.step, observed]
      rfl
  · intro values other
    rw [CounterVec.find_add, moved, Function.update_of_ne other, Function.update_of_ne other]
    exact ⟨rfl, rfl⟩

end StoreMetrics

end HedgedStore
