import HedgedStore.Proofs.Metrics.Description
import HedgedStore.Proofs.Metrics.Labelled
import HedgedStore.Proofs.Summary.Journal

/-! A family of summaries in use. The series of a tuple of label values is as good as a summary of
its own, created when the tuple is first named and given what names the tuple from then on and all
that is done with the whole family. A caller who gives a wrong number of values is stopped, and
leaves the family as it was. -/
namespace HedgedStore.SummaryVec

open Description (fault_eq_none named_increasing named_perm)
open Summary (Fault Form Journal Options Snapshot Window timely timely_eq_ok)

inductive Use
  | observe (values : List String) (word : Nat) (x : Binary64)
  | snapshot (values : List String)
  | collect
deriving DecidableEq, Repr

namespace Use

def values? : Use → Option (List String)
  | observe values _ _ | snapshot values => some values
  | collect => none

/-- What the use means to the series with these values. -/
def share? (values : List String) : Use → Option Summary.Use
  | observe named word x => if named = values then some (.observe word x) else none
  | snapshot named => if named = values then some .snapshot else none
  | collect => some .collect

end Use

/-- Who is stopped for the number of the values leaves the family to the others as it was. -/
def resume (vec : SummaryVec) : Except Fault SummaryVec → Except Fault SummaryVec
  | .error (.cardinality _ _ _) => .ok vec
  | outcome => outcome

def step (vec : SummaryVec) : Instant × Use → Except Fault SummaryVec
  | (now, .observe values word x) => vec.resume (vec.observe now values word x)
  | (now, .snapshot values) => vec.resume ((vec.snapshot now values).map (·.2))
  | (now, .collect) => (vec.collect now).map (·.2)

def run (form : Form) (uses : List (Instant × Use)) : Except Fault SummaryVec :=
  uses.foldlM step { form }

def Named (values : List String) (uses : List (Instant × Use)) : Prop :=
  ∃ use ∈ uses, use.2.values? = some values

def hand (values : List String) (use : Instant × Use) : Option (Instant × Summary.Use) :=
  (use.2.share? values).map fun share => (use.1, share)

/-- What the series with these values is given, from the first use on that names them. -/
def given (values : List String) (uses : List (Instant × Use)) : List (Instant × Summary.Use) :=
  (uses.dropWhile fun use => use.2.values? ≠ some values).filterMap (hand values)

/-- A summary of its own for these values, created when they are first named, or at `now`. -/
def apart (form : Form) (values : List String) (uses : List (Instant × Use)) (now : Instant) :
    Except Fault Journal :=
  Journal.run form (((given values uses).head?.map (·.1)).getD now) (given values uses)

variable {values : List String} {uses : List (Instant × Use)} {use : Instant × Use}
  {now : Instant}

theorem hand_of_named (named : use.2.values? = some values) :
    ∃ share, hand values use = some (use.1, share) := by
  obtain ⟨now, use⟩ := use
  cases use with
  | observe other word x =>
    obtain rfl := Option.some.inj named
    exact ⟨.observe word x, by simp [hand, Use.share?]⟩
  | snapshot other =>
    obtain rfl := Option.some.inj named
    exact ⟨.snapshot, by simp [hand, Use.share?]⟩
  | collect => cases named

theorem hand_eq_none {other : List String} (named : use.2.values? = some other)
    (differs : values ≠ other) : hand values use = none := by
  obtain ⟨now, use⟩ := use
  cases use with
  | observe mentioned word x =>
    obtain rfl := Option.some.inj named
    simp [hand, Use.share?, differs.symm]
  | snapshot mentioned =>
    obtain rfl := Option.some.inj named
    simp [hand, Use.share?, differs.symm]
  | collect => cases named

theorem named_snoc : Named values (uses ++ [use]) ↔
    Named values uses ∨ use.2.values? = some values := by
  simp [Named, or_and_right, exists_or]

theorem dropWhile_eq_nil (unnamed : ¬ Named values uses) :
    uses.dropWhile (fun use => use.2.values? ≠ some values) = [] := by
  induction uses with
  | nil => rfl
  | cons first rest ih =>
    have other : first.2.values? ≠ some values := fun named => unnamed ⟨first, by simp, named⟩
    have later : ¬ Named values rest := fun ⟨use, member, named⟩ =>
      unnamed ⟨use, List.mem_cons_of_mem first member, named⟩
    rw [List.dropWhile_cons_of_pos (by simpa using other), ih later]

theorem given_eq_nil (unnamed : ¬ Named values uses) : given values uses = [] := by
  rw [given, dropWhile_eq_nil unnamed, List.filterMap_nil]

theorem given_ne_nil (named : Named values uses) : given values uses ≠ [] := by
  induction uses with
  | nil =>
    obtain ⟨use, member, -⟩ := named
    cases member
  | cons first rest ih =>
    by_cases here : first.2.values? = some values
    · obtain ⟨share, handed⟩ := hand_of_named here
      simp [given, here, handed]
    · obtain ⟨use, member, later⟩ := named
      rcases List.mem_cons.mp member with rfl | member
      · exact absurd later here
      · have skipped : given values (first :: rest) = given values rest := by
          simp [given, here]
        rw [skipped]
        exact ih ⟨use, member, later⟩

/-- The series gets its share of a use once it has been named, were it by this very use. -/
theorem given_snoc (named : Named values (uses ++ [use])) :
    given values (uses ++ [use]) = given values uses ++ (hand values use).toList := by
  have once : [use].filterMap (hand values) = (hand values use).toList := by
    cases handed : hand values use <;> simp [handed]
  by_cases before : Named values uses
  · have going : uses.dropWhile (fun use => use.2.values? ≠ some values) ≠ [] := by
      intro nothing
      exact given_ne_nil before (by rw [given, nothing, List.filterMap_nil])
    have nonempty : ¬ (uses.dropWhile fun use => use.2.values? ≠ some values).isEmpty = true := by
      rwa [List.isEmpty_iff]
    rw [given, List.dropWhile_append, if_neg nonempty, List.filterMap_append, once, given]
  · have here := (named_snoc.mp named).resolve_left before
    rw [given, List.dropWhile_append, dropWhile_eq_nil before, if_pos List.isEmpty_nil,
      List.dropWhile_cons_of_neg (by simpa using here), once, given_eq_nil before, List.nil_append]

/-! The summary of its own. -/

variable {form alone : Form}

theorem apart_of_unnamed (unnamed : ¬ Named values uses) :
    apart alone values uses now = Journal.run alone now [] := by
  rw [apart, given_eq_nil unnamed]
  rfl

theorem apart_snoc {share : Summary.Use} (named : Named values (uses ++ [use]))
    (handed : hand values use = some (use.1, share)) (later : Instant) :
    apart alone values (uses ++ [use]) later =
      (do let journal ← apart alone values uses use.1; journal.step (use.1, share)) := by
  have start : (((given values uses ++ [(use.1, share)]).head?.map (·.1)).getD later) =
      ((given values uses).head?.map (·.1)).getD use.1 := by
    cases given values uses <;> rfl
  have grown := given_snoc named
  rw [handed, Option.toList_some] at grown
  rw [apart, grown, start, apart, Journal.run, Journal.run, bind_assoc]
  congr 1
  funext summary
  simp only [List.foldlM_append, List.foldlM_cons, List.foldlM_nil, bind_pure]

theorem apart_snoc_of_none (handed : hand values use = none) (later : Instant) :
    apart alone values (uses ++ [use]) later = apart alone values uses later := by
  have still : given values (uses ++ [use]) = given values uses := by
    by_cases named : Named values (uses ++ [use])
    · rw [given_snoc named, handed, Option.toList_none, List.append_nil]
    · have before : ¬ Named values uses := fun earlier => named (named_snoc.mpr (.inl earlier))
      rw [given_eq_nil named, given_eq_nil before]
  rw [apart, still, apart]

/-! What one use does to the family. -/

variable {vec later entered : SummaryVec} {window next : Window}

theorem observe_misfit (misfit : values.length ≠ vec.form.description.labels.length) (now : Instant)
    (word : Nat) (x : Binary64) : vec.observe now values word x =
      .error (.cardinality vec.form.description.name values.length
        vec.form.description.labels.length) := by
  simp [observe, checked, misfit]

theorem snapshot_misfit (misfit : values.length ≠ vec.form.description.labels.length)
    (now : Instant) : vec.snapshot now values =
      .error (.cardinality vec.form.description.name values.length
        vec.form.description.labels.length) := by
  simp [snapshot, checked, misfit]

theorem find_put (vec : SummaryVec) (values : List String) (window : Window) :
    (vec.put values window).find? = Function.update vec.find? values (some window) :=
  Labelled.find_insert vec.windows values window

/-- A series that is entered is there already, or it is a fresh one. -/
theorem enter_eq_ok (enters : vec.enter now values = .ok (window, entered)) :
    (vec.find? values = some window ∧ entered = vec) ∨
      (vec.find? values = none ∧ Window.create vec.form.plan now = some window ∧
        entered = vec.put values window) := by
  unfold enter at enters
  split at enters
  · rename_i found
    obtain ⟨rfl, rfl⟩ := Prod.mk.inj (Except.ok.inj enters)
    exact .inl ⟨found, rfl⟩
  · rename_i found
    obtain ⟨fresh, created, enters⟩ := bind_eq_ok.mp enters
    obtain ⟨rfl, rfl⟩ := Prod.mk.inj (Except.ok.inj enters)
    exact .inr ⟨found, timely_eq_ok.mp created, rfl⟩

theorem enter_form (enters : vec.enter now values = .ok (window, entered)) :
    entered.form = vec.form := by
  rcases enter_eq_ok enters with ⟨-, rfl⟩ | ⟨-, -, rfl⟩ <;> rfl

/-- Whether or not a series was there when it was entered, putting it back changes it alone. -/
theorem put_of_entered (enters : vec.enter now values = .ok (window, entered)) (next : Window) :
    (entered.put values next).find? = Function.update vec.find? values (some next) := by
  rcases enter_eq_ok enters with ⟨-, rfl⟩ | ⟨-, -, rfl⟩
  · rw [find_put]
  · rw [find_put, find_put, Function.update_idem]

theorem checked_of_fits (fits : values.length = vec.form.description.labels.length) :
    vec.checked values = .ok () := if_pos fits

theorem observe_eq_ok {word : Nat} {x : Binary64}
    (fits : values.length = vec.form.description.labels.length)
    (observed : vec.observe now values word x = .ok later) :
    ∃ window entered next, vec.enter now values = .ok (window, entered) ∧
      window.observe vec.form.plan now word x = some next ∧ later = entered.put values next := by
  rw [observe, checked_of_fits fits, ok_bind] at observed
  obtain ⟨⟨window, entered⟩, enters, observed⟩ := bind_eq_ok.mp observed
  obtain ⟨next, moved, observed⟩ := bind_eq_ok.mp observed
  rw [enter_form enters] at moved
  exact ⟨window, entered, next, enters, timely_eq_ok.mp moved, (Except.ok.inj observed).symm⟩

theorem snapshot_eq_ok {shown : Snapshot}
    (fits : values.length = vec.form.description.labels.length)
    (read : vec.snapshot now values = .ok (shown, later)) :
    ∃ window entered next, vec.enter now values = .ok (window, entered) ∧
      window.snapshot vec.form.plan now = some (shown, next) ∧ later = entered.put values next := by
  rw [snapshot, checked_of_fits fits, ok_bind] at read
  obtain ⟨⟨window, entered⟩, enters, read⟩ := bind_eq_ok.mp read
  obtain ⟨⟨seen, next⟩, moved, read⟩ := bind_eq_ok.mp read
  rw [enter_form enters] at moved
  obtain ⟨rfl, rfl⟩ := Prod.mk.inj (Except.ok.inj read)
  exact ⟨window, entered, next, enters, timely_eq_ok.mp moved, rfl⟩

/-! With the right number of values only the clock can fail. -/

theorem timely_eq_error {α : Type} {moves : Option α} {fault : Fault}
    (failed : timely moves = .error fault) : fault = .clockOverflow := by
  cases moves with
  | none => exact (Except.error.inj failed).symm
  | some a => cases failed

theorem moved_eq_error {α β : Type} {moves : Option α} {result : α → β} {fault : Fault}
    (failed : (do let a ← timely moves; return result a) = Except.error fault) :
    fault = .clockOverflow := by
  rcases bind_eq_error.mp failed with failed | ⟨a, -, failed⟩
  · exact timely_eq_error failed
  · cases failed

theorem enter_eq_error {fault : Fault} (failed : vec.enter now values = .error fault) :
    fault = .clockOverflow := by
  unfold enter at failed
  split at failed
  · cases failed
  · exact moved_eq_error failed

theorem observe_eq_error {word : Nat} {x : Binary64} {fault : Fault}
    (fits : values.length = vec.form.description.labels.length)
    (failed : vec.observe now values word x = .error fault) : fault = .clockOverflow := by
  rw [observe, checked_of_fits fits, ok_bind] at failed
  rcases bind_eq_error.mp failed with failed | ⟨⟨window, entered⟩, -, failed⟩
  · exact enter_eq_error failed
  · exact moved_eq_error failed

theorem snapshot_eq_error {fault : Fault}
    (fits : values.length = vec.form.description.labels.length)
    (failed : vec.snapshot now values = .error fault) : fault = .clockOverflow := by
  rw [snapshot, checked_of_fits fits, ok_bind] at failed
  rcases bind_eq_error.mp failed with failed | ⟨⟨window, entered⟩, -, failed⟩
  · exact enter_eq_error failed
  · exact moved_eq_error failed

/-- What a collection reads of each series, with the window that it leaves. -/
theorem collect_eq_ok {family : Family} (collected : vec.collect now = .ok (family, later)) :
    ∃ read : List (List String × Snapshot × Window),
      List.Forall₂ (fun entry seen => entry.1 = seen.1 ∧
        entry.2.snapshot vec.form.plan now = some seen.2) vec.windows.entries read ∧
      family = { name := vec.form.description.name, help := vec.form.description.help
                 kind := .summary
                 series := read.map fun seen =>
                  { labels := vec.form.description.named seen.1, reading := .summary seen.2.1 } } ∧
      later = { vec with windows := ⟨read.map fun seen => (seen.1, seen.2.2)⟩ } := by
  obtain ⟨read, mapped, collected⟩ := bind_eq_ok.mp collected
  obtain ⟨rfl, rfl⟩ := Prod.mk.inj (Except.ok.inj collected)
  refine ⟨read, (forall₂_of_mapM mapped).imp fun entry seen done => ?_, rfl, rfl⟩
  obtain ⟨⟨shown, next⟩, moved, done⟩ := bind_eq_ok.mp done
  obtain rfl := Except.ok.inj done
  exact ⟨rfl, timely_eq_ok.mp moved⟩

/-! A summary of its own moves as its window does. -/

section Alone

variable {journal : Journal}

theorem journal_observe (stands : journal.summary = ⟨alone, window⟩) {word : Nat} {x : Binary64}
    (moved : window.observe alone.plan now word x = some next) :
    ∃ after, journal.step (now, .observe word x) = .ok after ∧ after.summary = ⟨alone, next⟩ := by
  refine ⟨⟨⟨alone, next⟩, journal.entries ++ [⟨x, now, next.deadline⟩]⟩, ?_, rfl⟩
  simp only [Journal.step, stands, Summary.observe, moved, timely, ok_bind, pure_eq_ok]

theorem journal_snapshot (stands : journal.summary = ⟨alone, window⟩) {shown : Snapshot}
    (moved : window.snapshot alone.plan now = some (shown, next)) :
    ∃ after, journal.step (now, .snapshot) = .ok after ∧ after.summary = ⟨alone, next⟩ := by
  refine ⟨⟨⟨alone, next⟩, journal.entries⟩, ?_, rfl⟩
  simp only [Journal.step, stands, Summary.snapshot, moved, timely, ok_bind, pure_eq_ok]

theorem journal_collect (stands : journal.summary = ⟨alone, window⟩) {shown : Snapshot}
    (moved : window.snapshot alone.plan now = some (shown, next)) :
    ∃ after, journal.step (now, .collect) = .ok after ∧ after.summary = ⟨alone, next⟩ := by
  refine ⟨⟨⟨alone, next⟩, journal.entries⟩, ?_, rfl⟩
  simp only [Journal.step, stands, Summary.collect, Summary.snapshot, moved, timely, ok_bind,
    pure_eq_ok]

end Alone

/-! Every series is like the summary of its own, whatever is done with the family. -/

structure Kept (form alone : Form) (uses : List (Instant × Use)) (vec : SummaryVec) : Prop where
  form_eq : vec.form = form
  ordered : Labelled.Ordered vec.windows.entries
  mem_iff : ∀ values, vec.find? values ≠ none ↔
    values.length = form.description.labels.length ∧ Named values uses
  same : ∀ values window, vec.find? values = some window → ∀ now,
    ∃ journal, apart alone values uses now = .ok journal ∧ journal.summary = ⟨alone, window⟩

theorem Kept.start (form alone : Form) : Kept form alone [] { form } := by
  constructor
  · rfl
  · exact List.Pairwise.nil
  · intro values
    simp [find?, Labelled.find?, Named]
  · intro values window found
    simp [find?, Labelled.find?] at found

/-- Entering a series is like coming to the summary of its own. -/
theorem Kept.enter (kept : Kept form alone uses vec) (plan : alone.plan = form.plan)
    (fits : values.length = form.description.labels.length) (now : Instant) :
    (vec.enter now values).map (fun entered => (⟨alone, entered.1⟩ : Summary)) =
      (apart alone values uses now).map (·.summary) := by
  unfold SummaryVec.enter
  cases found : vec.find? values with
  | some window =>
    obtain ⟨journal, made, stands⟩ := kept.same values window found now
    rw [made]
    exact congrArg Except.ok stands.symm
  | none =>
    have unnamed : ¬ Named values uses := fun named => (kept.mem_iff values).mpr ⟨fits, named⟩ found
    rw [apart_of_unnamed unnamed, Journal.run, Summary.create, kept.form_eq, plan]
    cases Window.create form.plan now <;> rfl

/-- A use that names a series moves it as it moves the summary of its own, and no other series. -/
theorem Kept.touch (kept : Kept form alone uses vec) (plan : alone.plan = form.plan)
    (named : use.2.values? = some values) (fits : values.length = form.description.labels.length)
    {share : Summary.Use} (handed : hand values use = some (use.1, share))
    (enters : vec.enter use.1 values = .ok (window, entered))
    (moves : ∀ journal : Journal, journal.summary = ⟨alone, window⟩ →
      ∃ after, journal.step (use.1, share) = .ok after ∧ after.summary = ⟨alone, next⟩) :
    Kept form alone (uses ++ [use]) (entered.put values next) := by
  have moved := put_of_entered enters next
  have ordered : Labelled.Ordered entered.windows.entries := by
    rcases enter_eq_ok enters with ⟨-, rfl⟩ | ⟨-, -, rfl⟩
    · exact kept.ordered
    · exact kept.ordered.insert values window
  constructor
  case form_eq => exact (enter_form enters).trans kept.form_eq
  case ordered => exact ordered.insert values next
  case mem_iff =>
    intro other
    rw [moved, named_snoc]
    by_cases own : other = values
    · subst own
      simp [fits, named]
    · have differs : use.2.values? ≠ some other := fun also =>
        own (Option.some.inj (also.symm.trans named))
      rw [Function.update_of_ne own, kept.mem_iff other]
      simp [differs]
  case same =>
    intro other last found later
    rw [moved] at found
    by_cases own : other = values
    · subst own
      rw [Function.update_self] at found
      obtain rfl := Option.some.inj found
      have came := kept.enter plan fits use.1
      rw [enters] at came
      cases made : apart alone other uses use.1 with
      | error fault =>
        rw [made] at came
        cases came
      | ok journal =>
        rw [made] at came
        obtain ⟨after, stepped, stands⟩ := moves journal (Except.ok.inj came).symm
        refine ⟨after, ?_, stands⟩
        rw [apart_snoc (named_snoc.mpr (.inr named)) handed later, made, ok_bind, stepped]
    · rw [Function.update_of_ne own] at found
      rw [apart_snoc_of_none (hand_eq_none named own) later]
      exact kept.same other last found later

theorem Kept.stopped (kept : Kept form alone uses vec) (named : use.2.values? = some values)
    (misfit : values.length ≠ form.description.labels.length) :
    Kept form alone (uses ++ [use]) vec := by
  constructor
  case form_eq => exact kept.form_eq
  case ordered => exact kept.ordered
  case mem_iff =>
    intro other
    rw [kept.mem_iff other, named_snoc]
    constructor
    · exact fun ⟨fits, earlier⟩ => ⟨fits, .inl earlier⟩
    · rintro ⟨fits, earlier | here⟩
      · exact ⟨fits, earlier⟩
      · obtain rfl := Option.some.inj (here.symm.trans named)
        exact absurd fits misfit
  case same =>
    intro other window found later
    have fits := ((kept.mem_iff other).mp (found ▸ nofun)).1
    have own : other ≠ values := fun same => misfit (same ▸ fits)
    rw [apart_snoc_of_none (hand_eq_none named own) later]
    exact kept.same other window found later

/-- Reading the window at an instant leaves this one. -/
def Leaves (plan : Summary.Plan) (now : Instant) (window next : Window) : Prop :=
  ∃ shown, window.snapshot plan now = some (shown, next)

theorem Kept.collected (kept : Kept form alone uses vec) (plan : alone.plan = form.plan)
    {family : Family} (collected : vec.collect now = .ok (family, later)) :
    Kept form alone (uses ++ [(now, .collect)]) later := by
  obtain ⟨read, seen, -, rfl⟩ := collect_eq_ok collected
  have moved : List.Forall₂ (fun a b => a.1 = b.1 ∧ Leaves vec.form.plan now a.2 b.2)
      vec.windows.entries (read.map fun seen => (seen.1, seen.2.2)) :=
    List.forall₂_map_right_iff.mpr (seen.imp fun a b both => ⟨both.1, b.2.1, both.2⟩)
  have unnaming : (now, Use.collect).2.values? = none := rfl
  constructor
  case form_eq => exact kept.form_eq
  case ordered =>
    rw [Labelled.ordered_iff]
    simp only [Labelled.keys_forall₂ moved]
    exact Labelled.ordered_iff.mp kept.ordered
  case mem_iff =>
    intro values
    have still := kept.mem_iff values
    rw [find?, Labelled.find?, ← Labelled.mem_keys_iff] at still ⊢
    rw [Labelled.keys_forall₂ moved, still, named_snoc, unnaming]
    simp
  case same =>
    intro values next found later
    have reads : Option.Rel (Leaves vec.form.plan now) (vec.find? values) (some next) :=
      found ▸ Labelled.lookup_forall₂ moved values
    cases before : vec.find? values with
    | none =>
      rw [before] at reads
      cases reads
    | some window =>
      rw [before] at reads
      obtain ⟨shown, read⟩ := Option.rel_some_some.mp reads
      obtain ⟨journal, made, stands⟩ := kept.same values window before now
      rw [kept.form_eq, ← plan] at read
      obtain ⟨after, stepped, stands⟩ := journal_collect stands read
      have named := ((kept.mem_iff values).mp (before ▸ nofun)).2
      refine ⟨after, ?_, stands⟩
      rw [apart_snoc (named_snoc.mpr (.inl named)) rfl later, made, ok_bind, stepped]

theorem resume_eq_ok {outcome : Except Fault SummaryVec}
    (clocked : ∀ fault, outcome = .error fault → fault = .clockOverflow)
    (resumed : vec.resume outcome = .ok later) : outcome = .ok later := by
  cases outcome with
  | ok next => exact resumed
  | error fault =>
    obtain rfl := clocked fault rfl
    cases resumed

theorem Kept.step (kept : Kept form alone uses vec) (plan : alone.plan = form.plan)
    (stepped : vec.step use = .ok later) : Kept form alone (uses ++ [use]) later := by
  obtain ⟨rfl, same⟩ : form = vec.form ∧ alone.plan = vec.form.plan :=
    ⟨kept.form_eq.symm, kept.form_eq ▸ plan⟩
  obtain ⟨now, use⟩ := use
  cases use with
  | observe values word x =>
    by_cases fits : values.length = vec.form.description.labels.length
    · have observed := resume_eq_ok (fun _ => observe_eq_error fits) stepped
      obtain ⟨window, entered, next, enters, moved, rfl⟩ := observe_eq_ok fits observed
      have handed : hand values (now, .observe values word x) = some (now, .observe word x) := by
        simp [hand, Use.share?]
      refine kept.touch plan rfl fits handed enters fun journal stands => ?_
      exact journal_observe stands (same ▸ moved)
    · rw [SummaryVec.step, observe_misfit fits] at stepped
      obtain rfl := Except.ok.inj stepped
      exact kept.stopped rfl fits
  | snapshot values =>
    by_cases fits : values.length = vec.form.description.labels.length
    · cases read : vec.snapshot now values with
      | error fault =>
        obtain rfl := snapshot_eq_error fits read
        rw [SummaryVec.step, read] at stepped
        cases stepped
      | ok result =>
        obtain ⟨shown, left⟩ := result
        rw [SummaryVec.step, read] at stepped
        obtain rfl := Except.ok.inj stepped
        obtain ⟨window, entered, next, enters, moved, rfl⟩ := snapshot_eq_ok fits read
        have handed : hand values (now, .snapshot values) = some (now, .snapshot) := by
          simp [hand, Use.share?]
        refine kept.touch plan rfl fits handed enters fun journal stands => ?_
        exact journal_snapshot stands (same ▸ moved)
    · rw [SummaryVec.step, snapshot_misfit fits] at stepped
      obtain rfl := Except.ok.inj stepped
      exact kept.stopped rfl fits
  | collect =>
    cases collected : vec.collect now with
    | error fault =>
      rw [SummaryVec.step, collected] at stepped
      cases stepped
    | ok result =>
      rw [SummaryVec.step, collected] at stepped
      obtain rfl := Except.ok.inj stepped
      exact kept.collected plan collected

theorem Kept.steps (kept : Kept form alone uses vec) (plan : alone.plan = form.plan)
    {more : List (Instant × Use)} (ran : more.foldlM SummaryVec.step vec = .ok later) :
    Kept form alone (uses ++ more) later := by
  induction more generalizing uses vec with
  | nil =>
    obtain rfl := Except.ok.inj ran
    rwa [List.append_nil]
  | cons use more ih =>
    obtain ⟨next, stepped, ran⟩ := bind_eq_ok.mp ran
    have whole := ih (kept.step plan stepped) ran
    rwa [List.append_assoc] at whole

theorem run_kept (plan : alone.plan = form.plan) (ran : run form uses = .ok vec) :
    Kept form alone uses vec :=
  (Kept.start form alone).steps plan ran

/-! While the clock can count a slice further, every use returns. -/

theorem snapshot_timely (room : now.nanos + vec.form.plan.slice.nanos < Instant.limit)
    (fits : values.length = vec.form.description.labels.length) :
    ∃ shown later, vec.snapshot now values = .ok (shown, later) ∧ later.form = vec.form := by
  obtain ⟨window, entered, enters, same⟩ := enter_timely room values
  obtain ⟨turned, rotated⟩ := Window.rotate_timely room window
  refine ⟨turned.read vec.form.plan, entered.put values turned, ?_, same⟩
  simp [snapshot, checked_of_fits fits, enters, same, Window.snapshot, timely, rotated]

theorem collect_timely (room : now.nanos + vec.form.plan.slice.nanos < Instant.limit) :
    ∃ family later, vec.collect now = .ok (family, later) ∧ later.form = vec.form := by
  cases collected : vec.collect now with
  | ok result =>
    obtain ⟨read, -, -, later⟩ := collect_eq_ok collected
    exact ⟨result.1, result.2, rfl, by rw [later]⟩
  | error why =>
    rcases bind_eq_error.mp collected with failed | ⟨_, _, impossible⟩
    · obtain ⟨entry, -, failed⟩ := mapM_eq_error failed
      obtain ⟨turned, rotated⟩ := Window.rotate_timely room entry.2
      simp [Window.snapshot, timely, rotated] at failed
    · cases impossible

theorem step_timely (room : use.1.nanos + vec.form.plan.slice.nanos < Instant.limit) :
    ∃ later, vec.step use = .ok later ∧ later.form = vec.form := by
  obtain ⟨now, use⟩ := use
  cases use with
  | observe values word x =>
    by_cases fits : values.length = vec.form.description.labels.length
    · obtain ⟨later, observed, same⟩ := observe_timely room fits word x
      exact ⟨later, by rw [SummaryVec.step, observed]; rfl, same⟩
    · exact ⟨vec, by rw [SummaryVec.step, observe_misfit fits]; rfl, rfl⟩
  | snapshot values =>
    by_cases fits : values.length = vec.form.description.labels.length
    · obtain ⟨shown, later, read, same⟩ := snapshot_timely room fits
      exact ⟨later, by rw [SummaryVec.step, read]; rfl, same⟩
    · exact ⟨vec, by rw [SummaryVec.step, snapshot_misfit fits]; rfl, rfl⟩
  | collect =>
    obtain ⟨family, later, collected, same⟩ := collect_timely room
    exact ⟨later, by rw [SummaryVec.step, collected]; rfl, same⟩

theorem steps_timely
    (room : ∀ use ∈ uses, use.1.nanos + vec.form.plan.slice.nanos < Instant.limit) :
    ∃ later, uses.foldlM step vec = .ok later := by
  induction uses generalizing vec with
  | nil => exact ⟨vec, rfl⟩
  | cons use uses ih =>
    obtain ⟨next, stepped, same⟩ := step_timely (room use List.mem_cons_self)
    obtain ⟨later, ran⟩ : ∃ later, uses.foldlM step next = .ok later :=
      ih fun other member => same ▸ room other (List.mem_cons_of_mem use member)
    exact ⟨later, bind_eq_ok.mpr ⟨next, stepped, ran⟩⟩

/-! What the family shows. -/

theorem Kept.snapshot (kept : Kept form alone uses vec) (plan : alone.plan = form.plan)
    (fits : values.length = form.description.labels.length) (now : Instant) :
    (vec.snapshot now values).map (·.1) = (do
      let journal ← apart alone values uses now
      (journal.summary.snapshot now).map (·.1)) := by
  have came := kept.enter plan fits now
  have fits : values.length = vec.form.description.labels.length := kept.form_eq ▸ fits
  rw [SummaryVec.snapshot, checked_of_fits fits, ok_bind]
  cases enters : vec.enter now values with
  | error fault =>
    rw [enters] at came
    cases made : apart alone values uses now with
    | error other =>
      rw [made] at came
      exact congrArg Except.error (Except.error.inj came)
    | ok journal =>
      rw [made] at came
      cases came
  | ok result =>
    obtain ⟨window, entered⟩ := result
    rw [enters] at came
    cases made : apart alone values uses now with
    | error other =>
      rw [made] at came
      cases came
    | ok journal =>
      rw [made] at came
      have stands : journal.summary = ⟨alone, window⟩ := (Except.ok.inj came).symm
      simp only [ok_bind, enter_form enters, stands, Summary.snapshot, plan, kept.form_eq]
      cases window.snapshot form.plan now <;> rfl

/-- The metrics that a collection shows: one for each tuple that has been named, in the order of the
tuples, each with the labels in the order of their names. -/
structure Collection (form alone : Form) (uses : List (Instant × Use)) (now : Instant)
    (family : Family) (tuples : List (List String)) : Prop where
  titled : family.name = form.description.name ∧ family.help = form.description.help ∧
    family.kind = .summary
  ordered : tuples.Pairwise (· < ·)
  mem_iff : ∀ values, values ∈ tuples ↔
    values.length = form.description.labels.length ∧ Named values uses
  series : List.Forall₂ (fun values series =>
    series.labels.Perm (form.description.labels.zip values) ∧
    series.labels.Pairwise (fun a b => a.1 < b.1) ∧
    ∃ journal shown later, apart alone values uses now = .ok journal ∧
      journal.summary.snapshot now = .ok (shown, later) ∧ series.reading = .summary shown)
    tuples family.series

theorem Kept.collection (kept : Kept form alone uses vec) (plan : alone.plan = form.plan)
    (nodup : form.description.labels.Nodup) {family : Family}
    (collected : vec.collect now = .ok (family, later)) :
    Collection form alone uses now family (vec.windows.entries.map (·.1)) := by
  obtain ⟨read, seen, rfl, -⟩ := collect_eq_ok collected
  obtain rfl := kept.form_eq
  constructor
  case titled => exact ⟨rfl, rfl, rfl⟩
  case ordered => exact Labelled.ordered_iff.mp kept.ordered
  case mem_iff =>
    intro values
    rw [Labelled.mem_keys_iff]
    exact kept.mem_iff values
  case series =>
    have there : ∀ entry ∈ vec.windows.entries, vec.find? entry.1 = some entry.2 :=
      fun entry member => kept.ordered.lookup_of_mem member
    rw [List.forall₂_map_left_iff, List.forall₂_map_right_iff]
    refine ((List.forall₂_and_left _ _).mpr ⟨there, seen⟩).imp ?_
    rintro ⟨values, window⟩ ⟨same, shown, next⟩ ⟨found, rfl, read⟩
    have fits := ((kept.mem_iff values).mp (found ▸ nofun)).1
    obtain ⟨journal, made, stands⟩ := kept.same values window found now
    refine ⟨named_perm _ _, named_increasing _ _ nodup fits, journal, shown, ⟨alone, next⟩, made,
      ?_, rfl⟩
    rw [← plan] at read
    simp [stands, Summary.snapshot, read, timely]

/-- The same summary without labels. -/
def unlabelled (form : Form) : Form :=
  { form with description := { form.description with labels := [] } }

theorem form_of_clean {options : Options} {plan : Summary.Plan} {labels : List String}
    (planned : options.plan = .ok plan)
    (clean : Description.fault? { name := options.name, help := options.help, labels } = none) :
    options.form labels = .ok { description := { name := options.name, help := options.help, labels }
                                plan } := by
  rw [Options.form, planned, ok_bind]
  simp only [clean]
  rfl

theorem form_spec {options : Options} {labels : List String}
    (formed : options.form labels = .ok form) :
    form.description = { name := options.name, help := options.help, labels } ∧
      form.description.fault? = none ∧
      options.form [] = .ok (unlabelled form) := by
  obtain ⟨plan, planned, formed⟩ := bind_eq_ok.mp formed
  dsimp only at formed
  split at formed
  · cases formed
  · rename_i clean
    obtain rfl := Except.ok.inj formed
    refine ⟨rfl, clean, ?_⟩
    exact form_of_clean planned (fault_eq_none clean).2

/-- What is observed of a family that was used in some way. -/
structure StandsFor (form alone : Form) (uses : List (Instant × Use)) (vec : SummaryVec) : Prop where
  /-- A wrong number of values stops the caller, and nothing else happens. -/
  stops : ∀ values, values.length ≠ form.description.labels.length → ∀ now,
    let fault := .cardinality form.description.name values.length form.description.labels.length
    vec.snapshot now values = .error fault ∧ vec.step (now, .snapshot values) = .ok vec ∧
      ∀ word x, vec.observe now values word x = .error fault ∧
        vec.step (now, .observe values word x) = .ok vec
  snapshots : ∀ values, values.length = form.description.labels.length → ∀ now,
    (vec.snapshot now values).map (·.1) = (do
      let journal ← apart alone values uses now
      (journal.summary.snapshot now).map (·.1))
  /-- What names one tuple leaves the others alone. -/
  spares : ∀ use later values other, vec.step use = .ok later → use.2.values? = some values →
    other ≠ values → later.find? other = vec.find? other
  collects : ∀ now, now.nanos + form.plan.slice.nanos < Instant.limit →
    ∃ family later, vec.collect now = .ok (family, later)
  collection : ∀ now family later, vec.collect now = .ok (family, later) →
    ∃ tuples, Collection form alone uses now family tuples

theorem Kept.spares (kept : Kept form alone uses vec) (plan : alone.plan = form.plan)
    (stepped : vec.step use = .ok later) (named : use.2.values? = some values) {other : List String}
    (differs : other ≠ values) : later.find? other = vec.find? other := by
  have after := kept.step plan stepped
  have unnamed : use.2.values? ≠ some other := fun also =>
    differs (Option.some.inj (also.symm.trans named))
  have there : later.find? other ≠ none ↔ vec.find? other ≠ none := by
    rw [after.mem_iff, kept.mem_iff, named_snoc]
    simp [unnamed]
  cases found : vec.find? other with
  | none => simpa [found] using there
  | some window =>
    cases found_later : later.find? other with
    | none => simp [found, found_later] at there
    | some next =>
      obtain ⟨journal, made, stands⟩ := kept.same other window found ⟨0⟩
      obtain ⟨journal_later, made_later, stands_later⟩ := after.same other next found_later ⟨0⟩
      rw [apart_snoc_of_none (hand_eq_none named differs), made] at made_later
      obtain rfl := Except.ok.inj made_later
      obtain ⟨-, rfl⟩ := Summary.mk.inj (stands_later.symm.trans stands)
      rfl

theorem series_stand_alone {options : Options} {labels : List String} {form : Form}
    (formed : options.form labels = .ok form) :
    form.description.labels = labels ∧
    ∃ alone, options.form [] = .ok alone ∧ ∀ uses,
      ((∀ use ∈ uses, use.1.nanos + form.plan.slice.nanos < Instant.limit) →
        ∃ vec, run form uses = .ok vec) ∧
      ∀ vec, run form uses = .ok vec → StandsFor form alone uses vec := by
  obtain ⟨described, clean, formed_alone⟩ := form_spec formed
  refine ⟨by rw [described], _, formed_alone, fun uses => ⟨fun room => steps_timely room, ?_⟩⟩
  intro vec ran
  have kept : Kept form (unlabelled form) uses vec := run_kept rfl ran
  obtain rfl := kept.form_eq
  constructor
  case stops =>
    intro values misfit now
    refine ⟨snapshot_misfit misfit now, ?_, fun word x => ⟨observe_misfit misfit now word x, ?_⟩⟩
    · rw [step, snapshot_misfit misfit]
      rfl
    · rw [step, observe_misfit misfit]
      rfl
  case snapshots => exact fun values fits now => kept.snapshot rfl fits now
  case spares => exact fun use later values other stepped named => kept.spares rfl stepped named
  case collects =>
    intro now room
    obtain ⟨family, later, collected, -⟩ := collect_timely room
    exact ⟨family, later, collected⟩
  case collection =>
    intro now family later collected
    exact ⟨_, kept.collection rfl (fault_eq_none clean).1 collected⟩

def pairForm : Form :=
  { description := { name := "w", help := "h", labels := ["b", "a"] }
    plan := Summary.briefForm.plan }

theorem pair_form : Summary.brief.form ["b", "a"] = .ok pairForm := by
  have planned : Summary.brief.plan = .ok Summary.briefForm.plan :=
    Options.form_eq_ok Summary.brief_form
  exact form_of_clean planned (by decide)

/-- Two tuples, one of them named by a reader first, and a caller with a value too few. -/
def pairUses : List (Instant × Use) :=
  [(⟨1⟩, .observe ["x", "y"] 7 .one), (⟨2⟩, .snapshot ["x"]), (⟨5⟩, .snapshot ["x", "b"]),
    (⟨12⟩, .collect), (⟨30⟩, .observe ["x", "b"] 9 .infinity)]

theorem series_stand_alone_in_pairs :
    Summary.brief.form ["b", "a"] = .ok pairForm ∧
    ∃ alone vec family later tuples, Summary.brief.form [] = .ok alone ∧
      run pairForm pairUses = .ok vec ∧ StandsFor pairForm alone pairUses vec ∧
      vec.collect ⟨31⟩ = .ok (family, later) ∧
      Collection pairForm alone pairUses ⟨31⟩ family tuples ∧
      ["x", "b"] ∈ tuples ∧ ["x", "y"] ∈ tuples ∧ ["x"] ∉ tuples := by
  obtain ⟨-, alone, formed, stands⟩ := series_stand_alone pair_form
  obtain ⟨returns, shows⟩ := stands pairUses
  obtain ⟨vec, ran⟩ := returns (by decide)
  have shown := shows vec ran
  obtain ⟨family, later, collected⟩ := shown.collects ⟨31⟩ (by decide)
  obtain ⟨tuples, collection⟩ := shown.collection ⟨31⟩ family later collected
  refine ⟨pair_form, alone, vec, family, later, tuples, formed, ran, shown, collected, collection,
    ?_, ?_, ?_⟩
  all_goals rw [collection.mem_iff]
  · exact ⟨rfl, (⟨5⟩, .snapshot ["x", "b"]), by simp [pairUses], rfl⟩
  · exact ⟨rfl, (⟨1⟩, .observe ["x", "y"] 7 .one), by simp [pairUses], rfl⟩
  · exact fun ⟨fits, _⟩ => absurd fits (by decide)

end HedgedStore.SummaryVec
