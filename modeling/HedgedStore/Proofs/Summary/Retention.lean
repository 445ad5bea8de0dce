import HedgedStore.Proofs.Summary.Presence
import Mathlib.Algebra.Ring.Nat
import Mathlib.Data.List.Infix

/-! What a window retains. Beside each slice stands the list of all that was stored in it since it
was empty. The slice counts that list, and its samples are so many of these observations as find
room, each of them once; the words that are drawn decide no more than which ones. -/
namespace HedgedStore.Summary

/-- One of all the observations, each told from every other by its number. -/
structure Observation where
  number : Nat
  made : Instant
  value : Binary64
deriving DecidableEq, Repr

def numbered (uses : List (Instant × Use)) : List Observation :=
  (observations uses).mapIdx fun number seen => ⟨number, seen.1, seen.2⟩

theorem observations_append (uses more : List (Instant × Use)) :
    observations (uses ++ more) = observations uses ++ observations more :=
  List.filterMap_append

theorem numbered_observe (uses : List (Instant × Use)) (now : Instant) (word : Nat)
    (x : Binary64) : numbered (uses ++ [(now, .observe word x)]) =
      numbered uses ++ [⟨(observations uses).length, now, x⟩] := by
  unfold numbered
  rw [observations_append]
  exact List.mapIdx_concat

theorem numbered_read {uses : List (Instant × Use)} {use : Instant × Use}
    (silent : observations [use] = []) : numbered (uses ++ [use]) = numbered uses := by
  unfold numbered
  rw [observations_append, silent, List.append_nil]

theorem number_lt {uses : List (Instant × Use)} {o : Observation} (made : o ∈ numbered uses) :
    o.number < (observations uses).length := by
  unfold numbered at made
  obtain ⟨place, inside, rfl⟩ := List.mem_mapIdx.mp made
  exact inside

theorem numbered_nodup (uses : List (Instant × Use)) : (numbered uses).Nodup := by
  apply List.Nodup.of_map Observation.number
  have numbers : (numbered uses).map (·.number) = List.range (observations uses).length := by
    apply List.ext_getElem
    · simp [numbered]
    · intro place _ _
      simp [numbered]
  rw [numbers]
  exact List.nodup_range

/-- A slice of this capacity, and what was stored in it since it was empty. -/
structure Retains (capacity : Nat) (held : List Observation) (slice : Reservoir) : Prop where
  seen : slice.seen = held.length
  size : slice.samples.size = min slice.seen capacity
  kept : ∃ kept : List Observation, kept.Nodup ∧ kept ⊆ held ∧
    slice.samples.toList = kept.map (·.value) ∧ (slice.seen ≤ capacity → kept = held)

theorem Retains.empty (capacity : Nat) : Retains capacity [] .empty := by
  constructor
  case seen => rfl
  case size => exact (Nat.zero_min capacity).symm
  case kept => exact ⟨[], List.nodup_nil, List.Subset.refl _, rfl, fun _ => rfl⟩

/-- Whatever word is drawn, a new observation takes a free place or that of one other. -/
theorem Retains.observe {capacity : Nat} {held : List Observation} {slice : Reservoir}
    (retains : Retains capacity held slice) {o : Observation} (fresh : o ∉ held) (word : Nat) :
    Retains capacity (held ++ [o]) (slice.observe capacity word o.value) := by
  obtain ⟨samples, count⟩ := slice
  obtain ⟨seen, size, kept, nodup, among, values, all⟩ := retains
  dsimp only at seen size values all
  have new : o ∉ kept := fun old => fresh (among old)
  by_cases room : samples.size < capacity
  · have few : count ≤ capacity := by omega
    obtain rfl := all few
    rw [Reservoir.observe, if_pos room]
    constructor
    case seen => simp [seen]
    case size =>
      rw [Array.size_push]
      dsimp only
      omega
    case kept =>
      refine ⟨kept ++ [o], ?_, List.Subset.refl _, by simp [values], fun _ => rfl⟩
      rw [List.nodup_append]
      refine ⟨nodup, List.nodup_singleton o, ?_⟩
      rintro a old b last rfl
      exact new (List.mem_singleton.mp last ▸ old)
  · rw [Reservoir.observe, if_neg room]
    constructor
    case seen => simp [seen]
    case size =>
      rw [Array.size_setIfInBounds]
      dsimp only
      omega
    case kept =>
      refine ⟨kept.set (word % (count + 1)) o, nodup.set new, ?_, ?_, ?_⟩
      · intro other mem
        rcases List.mem_or_eq_of_mem_set mem with old | rfl
        · exact List.mem_append_left _ (among old)
        · exact List.mem_append_right _ List.mem_cons_self
      · rw [Array.toList_setIfInBounds, values, List.map_set]
      · intro few
        dsimp only at few
        omega

namespace Window

variable {plan : Plan} {window next : Window} {now : Instant}

/-- How many slices are new once the window has moved on to `now`. -/
def turns (plan : Plan) (window : Window) (now : Instant) : Nat :=
  if now.nanos < window.deadline.nanos then 0
  else if (now.since window.deadline).nanos ≥ plan.slice.nanos * plan.slices then plan.slices
  else (now.since window.deadline).nanos / plan.slice.nanos + 1

theorem rotate_slices (width : window.slices.length = plan.slices)
    (rotated : window.rotate plan now = some next) :
    next.slices = renew plan (window.turns plan now) window.slices := by
  unfold rotate at rotated
  unfold turns
  split at rotated
  · rename_i early
    obtain rfl := Option.some.inj rotated
    rw [if_pos early, renew, List.replicate_zero, List.nil_append, ← width, List.take_length]
  · rename_i late
    rw [if_neg late]
    dsimp only at rotated
    split at rotated
    · rename_i idle
      obtain ⟨deadline, -, moved⟩ := Option.bind_eq_some_iff.mp rotated
      obtain rfl := Option.some.inj moved
      rw [if_pos idle]
    · rename_i busy
      obtain ⟨deadline, -, moved⟩ := Option.bind_eq_some_iff.mp rotated
      obtain rfl := Option.some.inj moved
      rw [if_neg busy]

end Window

/-- The slices move on, and with them what was stored in each. -/
theorem retains_renew {plan : Plan} {held : List (List Observation)} {slices : List Reservoir}
    (retained : List.Forall₂ (Retains plan.capacity) held slices) (turns : Nat) :
    List.Forall₂ (Retains plan.capacity) ((List.replicate turns [] ++ held).take plan.slices)
      (Window.renew plan turns slices) := by
  apply List.forall₂_take
  induction turns with
  | zero => exact retained
  | succ turns ih => exact .cons (.empty plan.capacity) ih

/-- A journal, and for each slice of its window what was stored there since it was empty. -/
structure Stock where
  journal : Journal
  held : List (List Observation)

namespace Stock

def put (o : Observation) : List (List Observation) → List (List Observation)
  | [] => []
  | newest :: older => (newest ++ [o]) :: older

/-- As many empty lists come in as slices do, and as many of the oldest go. -/
def moved (stock : Stock) (now : Instant) : List (List Observation) :=
  let plan := stock.journal.summary.form.plan
  let turns := stock.journal.summary.window.turns plan now
  (List.replicate turns [] ++ stock.held).take plan.slices

def step (stock : Stock) (use : Instant × Use) : Except Fault Stock := do
  let journal ← stock.journal.step use
  return ⟨journal, match use.2 with
    | .observe _ x => put ⟨stock.journal.entries.length, use.1, x⟩ (stock.moved use.1)
    | .snapshot | .collect => stock.moved use.1⟩

def run (form : Form) (start : Instant) (uses : List (Instant × Use)) : Except Fault Stock := do
  uses.foldlM step ⟨⟨← Summary.create form start, []⟩, List.replicate form.plan.slices []⟩

/-- Each slice retains what it should of what it was given, and together they were given the latest
of all observations, the oldest slice the earliest. -/
structure Honest (form : Form) (done : List (Instant × Use)) (stock : Stock) : Prop where
  form_eq : stock.journal.summary.form = form
  counted : stock.journal.entries.length = (observations done).length
  width : stock.held.length = form.plan.slices
  latest : stock.held.reverse.flatten <:+ numbered done
  slices : List.Forall₂ (Retains form.plan.capacity) stock.held stock.journal.summary.window.slices

variable {form : Form} {stock : Stock} {journal : Journal} {start : Instant}
  {use : Instant × Use} {uses done : List (Instant × Use)}

theorem flatten_renew (held : List (List Observation)) (turns width : Nat) :
    ((List.replicate turns [] ++ held).take width).reverse.flatten <:+ held.reverse.flatten := by
  have whole : (List.replicate turns [] ++ held).reverse.flatten = held.reverse.flatten := by
    rw [List.reverse_append, List.flatten_append, List.reverse_replicate,
      List.flatten_replicate_nil, List.append_nil]
  rw [List.reverse_take, ← whole]
  exact (List.drop_suffix _ _).flatten

theorem Honest.create {summary : Summary} (created : Summary.create form start = .ok summary) :
    Honest form [] ⟨⟨summary, []⟩, List.replicate form.plan.slices []⟩ := by
  obtain ⟨rfl, made⟩ := create_eq_ok created
  obtain ⟨deadline, -, made⟩ := Option.bind_eq_some_iff.mp made
  have slices := congrArg Window.slices (Option.some.inj made)
  constructor
  case form_eq => rfl
  case counted => rfl
  case width => exact List.length_replicate
  case latest =>
    rw [List.reverse_replicate, List.flatten_replicate_nil]
    exact List.nil_suffix
  case slices =>
    rw [← slices]
    generalize summary.form.plan.slices = width
    induction width with
    | zero => exact .nil
    | succ width ih => exact .cons (.empty _) ih

theorem Honest.moved (honest : Honest form done stock) {now : Instant} {window : Window}
    (rotated : stock.journal.summary.window.rotate form.plan now = some window) :
    List.Forall₂ (Retains form.plan.capacity) (stock.moved now) window.slices ∧
      (stock.moved now).length = form.plan.slices ∧
      (stock.moved now).reverse.flatten <:+ numbered done := by
  obtain ⟨rfl, -, width, latest, slices⟩ := honest
  have window_width := slices.length_eq.symm.trans width
  unfold Stock.moved
  refine ⟨?_, ?_, (flatten_renew _ _ _).trans latest⟩
  · rw [Window.rotate_slices window_width rotated]
    exact retains_renew slices _
  · rw [List.length_take, List.length_append, width]
    omega

/-- What is observed is held by the newest slice. -/
theorem retains_put {plan : Plan} {window : Window} {held : List (List Observation)}
    (retained : List.Forall₂ (Retains plan.capacity) held window.slices) {o : Observation}
    (fresh : o ∉ held.reverse.flatten) (nonempty : held ≠ []) (word : Nat) :
    List.Forall₂ (Retains plan.capacity) (put o held) (window.store plan word o.value).slices ∧
      (put o held).length = held.length ∧
      (put o held).reverse.flatten = held.reverse.flatten ++ [o] := by
  obtain ⟨slices, deadline, count, sum⟩ := window
  cases retained with
  | nil => exact absurd rfl nonempty
  | @cons newest slice older slices first rest =>
    refine ⟨.cons (first.observe ?_ word) rest, rfl, by simp [put]⟩
    intro old
    apply fresh
    simp [old]

/-- Each step of a journal is one of the stock beside it, and keeps it honest. -/
theorem Honest.step (honest : Honest form done stock) (nonempty : 0 < form.plan.slices)
    (stepped : stock.journal.step use = .ok journal) :
    ∃ held, stock.step use = .ok ⟨journal, held⟩ ∧ Honest form (done ++ [use]) ⟨journal, held⟩ := by
  obtain ⟨same, window, rotated, happened⟩ := Journal.step_eq_ok stepped
  have form_eq := same.trans honest.form_eq
  rw [honest.form_eq] at rotated happened
  obtain ⟨slices, width, latest⟩ := honest.moved rotated
  obtain ⟨now, kind⟩ := use
  refine ⟨_, by rw [Stock.step, stepped, ok_bind]; rfl, ?_⟩
  rcases happened with ⟨word, x, rfl, stored, entries⟩ | ⟨silent, still, entries⟩
  · have fresh : ⟨stock.journal.entries.length, now, x⟩ ∉ (stock.moved now).reverse.flatten := by
      intro old
      have earlier := number_lt (latest.mem old)
      rw [honest.counted] at earlier
      exact Nat.lt_irrefl _ earlier
    have some_slice : stock.moved now ≠ [] := by
      rw [← List.length_pos_iff, width]
      exact nonempty
    obtain ⟨retained, put_width, put_latest⟩ := retains_put slices fresh some_slice word
    constructor
    case form_eq => exact form_eq
    case counted =>
      dsimp only
      rw [entries, List.length_append, honest.counted, observations_append, List.length_append]
      rfl
    case width => exact put_width.trans width
    case latest =>
      dsimp only
      rw [put_latest, numbered_observe, honest.counted]
      obtain ⟨before, whole⟩ := latest
      exact ⟨before, by rw [← whole, List.append_assoc]⟩
    case slices =>
      dsimp only
      rw [stored]
      exact retained
  · have read : numbered (done ++ [(now, kind)]) = numbered done := numbered_read silent
    constructor
    case form_eq => exact form_eq
    case counted =>
      dsimp only
      rw [entries, honest.counted, observations_append, silent, List.append_nil]
    all_goals
      cases kind with
      | observe word x => cases silent
      | snapshot | collect => simp only [width, read, latest, still, slices]

theorem Honest.steps (honest : Honest form done stock) (nonempty : 0 < form.plan.slices)
    (ran : uses.foldlM Journal.step stock.journal = .ok journal) :
    ∃ held, uses.foldlM Stock.step stock = .ok ⟨journal, held⟩ ∧
      Honest form (done ++ uses) ⟨journal, held⟩ := by
  induction uses generalizing stock done with
  | nil =>
    obtain rfl := Except.ok.inj ran
    rw [List.append_nil]
    exact ⟨stock.held, rfl, honest⟩
  | cons use uses ih =>
    obtain ⟨next, stepped, ran⟩ := bind_eq_ok.mp ran
    obtain ⟨between, stocked, honest_next⟩ := honest.step nonempty stepped
    obtain ⟨held, stocked_on, honest_last⟩ := ih honest_next ran
    rw [List.append_assoc] at honest_last
    exact ⟨held, bind_eq_ok.mpr ⟨_, stocked, stocked_on⟩, honest_last⟩

theorem run_honest (nonempty : 0 < form.plan.slices)
    (ran : Journal.run form start uses = .ok journal) :
    ∃ held, run form start uses = .ok ⟨journal, held⟩ ∧ Honest form uses ⟨journal, held⟩ := by
  obtain ⟨summary, created, used⟩ := bind_eq_ok.mp ran
  obtain ⟨held, stocked, honest⟩ := (Honest.create created).steps nonempty used
  exact ⟨held, bind_eq_ok.mpr ⟨summary, created, stocked⟩, honest⟩

end Stock

section Slices

variable {capacity : Nat} {held : List (List Observation)} {slices : List Reservoir}

theorem samples_le (retained : List.Forall₂ (Retains capacity) held slices) :
    (slices.map (·.samples.size)).sum ≤ slices.length * capacity := by
  induction retained with
  | nil => simp
  | cons first rest ih =>
    have size := first.size
    rw [List.map_cons, List.sum_cons, List.length_cons, Nat.succ_mul]
    omega

/-- What a slice retains has been stored in it. -/
theorem mem_held (retained : List.Forall₂ (Retains capacity) held slices) {slice : Reservoir}
    (live : slice ∈ slices) {x : Binary64} (sampled : x ∈ slice.samples) :
    ∃ given ∈ held, ∃ o ∈ given, o.value = x := by
  induction retained with
  | nil => cases live
  | @cons given first others rest retains _ ih =>
    rcases List.mem_cons.mp live with rfl | live
    · obtain ⟨kept, -, among, values, -⟩ := retains.kept
      rw [← Array.mem_toList_iff, values] at sampled
      obtain ⟨o, mem, rfl⟩ := List.mem_map.mp sampled
      exact ⟨given, List.mem_cons_self, o, among mem, rfl⟩
    · obtain ⟨given, mem, found⟩ := ih live
      exact ⟨given, List.mem_cons_of_mem _ mem, found⟩

/-- A quantile is told by what is retained, unless that is nothing. -/
theorem quantile_held {plan : Plan} {window : Window}
    (retained : List.Forall₂ (Retains capacity) held window.slices) {r : Binary64 × Binary64}
    (shown : r ∈ (window.read plan).quantiles) :
    (r.2 = .nan ∧ ∀ slice ∈ window.slices, slice.samples.size = 0) ∨
      ∃ given ∈ held, ∃ o ∈ given, o.value = r.2 := by
  obtain ⟨q, value⟩ := Window.quantiles_mem shown
  by_cases empty : ∀ slice ∈ window.slices, slice.samples.size = 0
  · left
    refine ⟨?_, empty⟩
    rw [value, Window.sorted_eq_nil empty]
    exact nearestRank_nil q
  · right
    push Not at empty
    obtain ⟨slice, live, nonempty⟩ := empty
    have ranked := nearestRank_mem (Window.sorted_nonempty live nonempty) q
    obtain ⟨slice, live, sampled⟩ := Window.mem_sorted.mp (List.mem_toArray.mp ranked)
    rw [value]
    exact mem_held retained live sampled

end Slices

/-- However a summary has been used and whatever words were drawn, each of its slices retains
observations out of those that it was given, and no quantile shows anything else. -/
theorem slices_retain_observations {options : Options} {labels : List String} {form : Form}
    (formed : options.form labels = .ok form) {start : Instant} {uses : List (Instant × Use)}
    {journal : Journal} (ran : Journal.run form start uses = .ok journal) :
    ∃ held, Stock.run form start uses = .ok ⟨journal, held⟩ ∧
      (numbered uses).Nodup ∧ held.reverse.flatten <:+ numbered uses ∧
      List.Forall₂ (Retains options.maxSamples) held journal.summary.window.slices ∧
      (journal.summary.window.slices.map (·.samples.size)).sum ≤
        options.ageBuckets * options.maxSamples ∧
      ∀ now shown later, journal.summary.snapshot now = .ok (shown, later) →
        ∃ held, Stock.run form start (uses ++ [(now, .snapshot)]) =
            .ok ⟨⟨later, journal.entries⟩, held⟩ ∧
          ∀ r ∈ shown.quantiles,
            (r.2 = .nan ∧ ∀ slice ∈ later.window.slices, slice.samples.size = 0) ∨
              ∃ given ∈ held, ∃ o ∈ given, o.value = r.2 := by
  obtain ⟨nonempty, shape⟩ := Options.plan_eq_ok (Options.form_eq_ok formed)
  have slices : form.plan.slices = options.ageBuckets := by rw [shape]
  have capacity : form.plan.capacity = options.maxSamples := by rw [shape]
  rw [← slices] at nonempty
  rw [← slices, ← capacity]
  obtain ⟨held, stocked, honest⟩ := Stock.run_honest nonempty ran
  have few := samples_le honest.slices
  rw [← honest.slices.length_eq, honest.width] at few
  refine ⟨held, stocked, numbered_nodup uses, honest.latest, honest.slices, few, ?_⟩
  intro now shown later read
  have read_on : journal.step (now, .snapshot) = .ok ⟨later, journal.entries⟩ := by
    rw [Journal.step, read]
    rfl
  obtain ⟨held_then, stocked_then, honest_then⟩ := honest.step nonempty read_on
  obtain ⟨same, -, rfl⟩ := snapshot_eq_ok read
  have stocked_on : Stock.run form start (uses ++ [(now, .snapshot)]) =
      .ok ⟨⟨later, journal.entries⟩, held_then⟩ := by
    obtain ⟨summary, created, used⟩ := bind_eq_ok.mp stocked
    refine bind_eq_ok.mpr ⟨summary, created, ?_⟩
    rw [List.foldlM_append]
    refine bind_eq_ok.mpr ⟨_, used, ?_⟩
    exact bind_eq_ok.mpr ⟨_, stocked_then, rfl⟩
  exact ⟨held_then, stocked_on, fun r mem => quantile_held honest_then.slices mem⟩

/-- Three observations in a slice for two; the last one takes the place of the second. -/
theorem slices_retain_observations_beyond_capacity :
    brief.form [] = .ok briefForm ∧ ∃ journal held older,
      Journal.run briefForm ⟨0⟩ [(⟨1⟩, .observe 7 .one), (⟨2⟩, .observe 5 .infinity),
        (⟨3⟩, .observe 4 .zero)] = .ok journal ∧
      journal.summary.window.slices = [⟨#[.one, .zero], 3⟩, .empty] ∧
      held = [[⟨0, ⟨1⟩, .one⟩, ⟨1, ⟨2⟩, .infinity⟩, ⟨2, ⟨3⟩, .zero⟩], older] ∧
      List.Forall₂ (Retains 2) held journal.summary.window.slices := by
  let used : Window :=
    ⟨[⟨#[.one, .zero], 3⟩, .empty], ⟨10⟩, 3, ((Binary64.zero.add .one).add .infinity).add .zero⟩
  have ran : Journal.run briefForm ⟨0⟩ [(⟨1⟩, .observe 7 .one), (⟨2⟩, .observe 5 .infinity),
      (⟨3⟩, .observe 4 .zero)] = .ok ⟨⟨briefForm, used⟩,
        [⟨.one, ⟨1⟩, ⟨10⟩⟩, ⟨.infinity, ⟨2⟩, ⟨10⟩⟩, ⟨.zero, ⟨3⟩, ⟨10⟩⟩]⟩ := rfl
  obtain ⟨held, stocked, -, -, retained, -⟩ := slices_retain_observations brief_form ran
  have found := congrArg Stock.held (Except.ok.inj stocked)
  exact ⟨brief_form, _, held, [], ran, rfl, found.symm, retained⟩

end HedgedStore.Summary
