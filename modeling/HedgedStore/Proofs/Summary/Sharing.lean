import HedgedStore.Proofs.Summary.Horizon
import HedgedStore.Summary.Shared

/-! A family of summaries that is shared, step by step. Whoever has a turn, each series stays the one
of its tuple of label values: a new one gets a place of its own, and only for a tuple that has none,
and one that moves on is seen by nobody else. A client whom nobody interrupts does what observing
in a family of summaries does. -/
namespace HedgedStore

open Summary (Fault Form Window timely timely_eq_ok)

namespace SharedVec

variable {shared later : SharedVec} {now : Instant} {values other : List String} {place : Nat}
  {window : Window}

/-- How many observations the series with these values has counted. -/
def count (shared : SharedVec) (values : List String) : Nat :=
  (shared.window? values).elim 0 Window.count

/-- Every series ever created is the one of a single tuple of label values. -/
structure Kept (shared : SharedVec) : Prop where
  inside {values : List String} {place : Nat} :
    shared.find? values = some place → place < shared.series.length
  owned {place : Nat} : place < shared.series.length → ∃ values, shared.find? values = some place
  apart {values other : List String} {place : Nat} :
    shared.find? values = some place → shared.find? other = some place → other = values

/-- What a tuple was found to stand for, it stands for later on. -/
def Grows (shared later : SharedVec) : Prop :=
  ∀ values place, shared.find? values = some place → later.find? values = some place

theorem Grows.refl (shared : SharedVec) : shared.Grows shared := fun _ _ found => found

/-! A series more. -/

theorem find_add (shared : SharedVec) (values : List String) (window : Window) :
    (shared.add values window).find? =
      Function.update shared.find? values (some shared.series.length) :=
  Labelled.find_insert shared.places values _

theorem Grows.add (missing : shared.find? values = none) (window : Window) :
    shared.Grows (shared.add values window) := by
  intro other place found
  have differs : other ≠ values := by
    rintro rfl
    rw [missing] at found
    cases found
  rw [find_add, Function.update_of_ne differs, found]

theorem Kept.start (form : Form) : ({ form } : SharedVec).Kept where
  inside found := by cases found
  owned inside := by cases inside
  apart found := by cases found

theorem Kept.add (kept : shared.Kept) (missing : shared.find? values = none) (window : Window) :
    (shared.add values window).Kept := by
  have length : (shared.add values window).series.length = shared.series.length + 1 := by
    simp [SharedVec.add]
  -- The new series has a place of its own, behind those of all others.
  have told {other : List String} {place : Nat} :
      (shared.add values window).find? other = some place ↔
        other = values ∧ place = shared.series.length ∨
          other ≠ values ∧ shared.find? other = some place := by
    rw [find_add]
    by_cases here : other = values
    · simp [here, eq_comm]
    · simp [here]
  constructor
  · intro other place found
    rw [length]
    obtain ⟨-, rfl⟩ | ⟨-, found⟩ := told.mp found
    · exact Nat.lt_succ_self _
    · exact Nat.lt_succ_of_lt (kept.inside found)
  · intro place inside
    rw [length] at inside
    obtain inside | rfl := Nat.lt_succ_iff_lt_or_eq.mp inside
    · obtain ⟨other, found⟩ := kept.owned inside
      exact ⟨other, Grows.add missing window other place found⟩
    · exact ⟨values, told.mpr (.inl ⟨rfl, rfl⟩)⟩
  · intro first second place found also
    obtain ⟨rfl, rfl⟩ | ⟨-, old⟩ := told.mp found <;>
      obtain ⟨rfl, new⟩ | ⟨-, old'⟩ := told.mp also
    · rfl
    · exact absurd (kept.inside old') (Nat.lt_irrefl _)
    · exact absurd new (Nat.ne_of_lt (kept.inside old))
    · exact kept.apart old old'

theorem window_add (kept : shared.Kept) (values : List String) (window : Window) :
    (shared.add values window).window? =
      Function.update shared.window? values (some window) := by
  funext other
  rw [Function.update_apply, window?, find_add, Function.update_apply]
  split
  · simp [add]
  · cases found : shared.find? other with
    | none => simp [window?, found]
    | some place => simp [window?, found, add, List.getElem?_append_left (kept.inside found)]

theorem enter_eq_ok (enters : shared.enter now values = .ok (place, later)) :
    (shared.find? values = some place ∧ later = shared) ∨
      (shared.find? values = none ∧ place = shared.series.length ∧
        ∃ window, Window.create shared.form.plan now = some window ∧
          later = shared.add values window) := by
  unfold enter at enters
  split at enters
  · rename_i found
    obtain ⟨rfl, rfl⟩ := Prod.mk.inj (Except.ok.inj enters)
    exact .inl ⟨found, rfl⟩
  · rename_i missing
    obtain ⟨window, created, enters⟩ := bind_eq_ok.mp enters
    obtain ⟨rfl, rfl⟩ := Prod.mk.inj (Except.ok.inj enters)
    exact .inr ⟨missing, rfl, window, timely_eq_ok.mp created, rfl⟩

/-- The values of the series that was created in between, if one was. -/
def created (shared later : SharedVec) (values : List String) : List (List String) :=
  if shared.series.length < later.series.length then [values] else []

theorem created_add (shared : SharedVec) (values : List String) (window : Window) :
    shared.created (shared.add values window) values = [values] :=
  if_pos (by simp [SharedVec.add])

theorem created_same (shared : SharedVec) (values : List String) :
    shared.created shared values = [] :=
  if_neg (Nat.lt_irrefl _)

/-- What entering a series leaves behind. -/
structure Entered (shared later : SharedVec) (values : List String) (place : Nat) : Prop where
  form : later.form = shared.form
  kept : later.Kept
  grows : shared.Grows later
  found : later.find? values = some place
  count (other : List String) : later.count other = shared.count other
  once (other : List String) : (later.find? other).toList.length =
    (shared.find? other).toList.length + (shared.created later values).count other
  all : later.series.length = shared.series.length + (shared.created later values).length

theorem Kept.enter (kept : shared.Kept) (enters : shared.enter now values = .ok (place, later)) :
    shared.Entered later values place := by
  obtain ⟨found, rfl⟩ | ⟨missing, rfl, window, created, rfl⟩ := enter_eq_ok enters
  · have nothing := created_same later values
    exact ⟨rfl, kept, Grows.refl _, found, fun _ => rfl, by simp [nothing], by simp [nothing]⟩
  · have fresh := (Window.create_totals created).1
    exact {
      form := rfl
      kept := kept.add missing window
      grows := Grows.add missing window
      found := by rw [find_add, Function.update_self]
      count := by
        intro other
        rw [count, window_add kept, Function.update_apply]
        split
        · rename_i here
          simp [count, window?, here, missing, fresh]
        · rfl
      once := by
        intro other
        rw [created_add, find_add, Function.update_apply]
        split
        · rename_i here
          simp [here, missing]
        · rename_i differs
          simp [Ne.symm differs]
      all := by
        rw [created_add]
        simp [SharedVec.add] }

/-! A series that moves on. -/

theorem Kept.set (kept : shared.Kept) (place : Nat) (next : Window) :
    (shared.set place next).Kept where
  inside found := by
    rw [SharedVec.set, List.length_set]
    exact kept.inside found
  owned inside := by
    rw [SharedVec.set, List.length_set] at inside
    exact kept.owned inside
  apart := kept.apart

/-- What happens to the series of one tuple is not seen by any other. -/
theorem window_set (kept : shared.Kept) (found : shared.find? values = some place)
    (next : Window) :
    (shared.set place next).window? = Function.update shared.window? values (some next) := by
  funext other
  have places : (shared.set place next).find? = shared.find? := rfl
  rw [Function.update_apply, window?, places]
  split
  · rename_i here
    simp [here, found, SharedVec.set, kept.inside found]
  · rename_i differs
    cases elsewhere : shared.find? other with
    | none => simp [window?, elsewhere]
    | some distant =>
      have distinct : place ≠ distant := by
        rintro rfl
        exact differs (kept.apart found elsewhere)
      simp [window?, elsewhere, SharedVec.set, List.getElem?_set_ne distinct]

theorem observe_eq_ok {word : Nat} {x : Binary64} (held : place < shared.series.length)
    (observed : shared.observe now place word x = .ok later) :
    ∃ next, next.count = shared.series[place].count + 1 ∧ later = shared.set place next := by
  unfold observe at observed
  rw [List.getElem?_eq_getElem held] at observed
  obtain ⟨next, moved, observed⟩ := bind_eq_ok.mp observed
  obtain rfl := Except.ok.inj observed
  obtain ⟨turned, rotated, rfl⟩ := Option.map_eq_some_iff.mp (timely_eq_ok.mp moved)
  refine ⟨_, ?_, rfl⟩
  rw [(Window.store_totals _ word x turned).1, (Window.rotate_totals rotated).1]

/-- What an observation leaves behind. -/
structure Observed (shared later : SharedVec) (values : List String) : Prop where
  form : later.form = shared.form
  kept : later.Kept
  find : later.find? = shared.find?
  all : later.series.length = shared.series.length
  count (other : List String) :
    later.count other = shared.count other + [values].count other

theorem Kept.observe {word : Nat} {x : Binary64} (kept : shared.Kept)
    (found : shared.find? values = some place)
    (observed : shared.observe now place word x = .ok later) : shared.Observed later values := by
  have held := kept.inside found
  obtain ⟨next, counts, rfl⟩ := observe_eq_ok held observed
  refine ⟨rfl, kept.set place next, rfl, List.length_set, fun other => ?_⟩
  rw [SharedVec.count, window_set kept found, Function.update_apply]
  split
  · rename_i here
    simp [SharedVec.count, window?, here, found, held, counts]
  · rename_i differs
    simp [SharedVec.count, Ne.symm differs]

/-! The clock is all that can stop a client. -/

theorem enter_returns (room : now.nanos + shared.form.plan.slice.nanos < Instant.limit)
    (values : List String) : ∃ place later, shared.enter now values = .ok (place, later) := by
  unfold enter
  cases shared.find? values with
  | some place => exact ⟨place, shared, rfl⟩
  | none =>
    obtain ⟨window, created⟩ := Window.create_timely room
    simp [created, timely]

theorem observe_returns (room : now.nanos + shared.form.plan.slice.nanos < Instant.limit)
    (place word : Nat) (x : Binary64) : ∃ later, shared.observe now place word x = .ok later := by
  unfold observe
  cases shared.series[place]? with
  | none => exact ⟨shared, rfl⟩
  | some window =>
    obtain ⟨turned, rotated⟩ := Window.rotate_timely room window
    simp [Window.observe, rotated, timely]

/-! A client alone. -/

/-- What is shared by label values is what the family of summaries holds for them. -/
structure Shows (shared : SharedVec) (vec : SummaryVec) : Prop where
  kept : shared.Kept
  form : vec.form = shared.form
  find : vec.find? = shared.window?

variable {vec : SummaryVec}

theorem Shows.start (form : Form) : Shows { form } { form } := ⟨Kept.start form, rfl, rfl⟩

theorem Shows.add (shows : Shows shared vec) (missing : shared.find? values = none)
    (window : Window) : Shows (shared.add values window) (vec.put values window) where
  kept := shows.kept.add missing window
  form := shows.form
  find := by rw [SummaryVec.find_put, window_add shows.kept, shows.find]

theorem Shows.set (shows : Shows shared vec) (found : shared.find? values = some place)
    (next : Window) : Shows (shared.set place next) (vec.put values next) where
  kept := shows.kept.set place next
  form := shows.form
  find := by rw [SummaryVec.find_put, window_set shows.kept found, shows.find]

/-- To look again right after one looked makes no difference. -/
theorem handle_eq_enter (shared : SharedVec) (now : Instant) (values : List String) :
    shared.handle now values = shared.enter now values := by
  unfold handle enter
  cases shared.find? values <;> rfl

/-- What was entered in one family and in the other. -/
structure SameEntry (values : List String) (entered : Nat × SharedVec)
    (entry : Window × SummaryVec) : Prop where
  shows : Shows entered.2 entry.2
  found : entered.2.find? values = some entered.1
  held : entered.2.series[entered.1]? = some entry.1

theorem enter_alike (shows : Shows shared vec) (now : Instant) (values : List String) :
    Alike (SameEntry values) (shared.enter now values) (vec.enter now values) := by
  unfold enter SummaryVec.enter
  cases found : shared.find? values with
  | some place =>
    have inside := shows.kept.inside found
    have held : shared.series[place]? = some shared.series[place] := List.getElem?_eq_getElem inside
    have present : vec.find? values = some shared.series[place] := by
      simp [shows.find, window?, found, held]
    simp only [present]
    exact .ok ⟨shows, found, held⟩
  | none =>
    have absent : vec.find? values = none := by simp [shows.find, window?, found]
    simp only [absent, shows.form]
    refine (Alike.same (R := Eq) (fun _ => rfl) _).bind ?_
    rintro window _ rfl
    exact .ok {
      shows := shows.add found window
      found := by rw [find_add, Function.update_self]
      held := by simp [SharedVec.add] }

theorem call_alike (shows : Shows shared vec) (now : Instant) (values : List String) (word : Nat)
    (x : Binary64) :
    Alike Shows (shared.call now values word x) (vec.observe now values word x) := by
  have same_check : shared.checked values = vec.checked values := by
    simp only [checked, SummaryVec.checked, shows.form]
  unfold call SummaryVec.observe
  rw [same_check, handle_eq_enter]
  refine (Alike.same (R := Eq) (fun _ => rfl) _).bind fun _ _ _ => ?_
  refine (enter_alike shows now values).bind ?_
  rintro ⟨place, entered⟩ ⟨window, entry⟩ ⟨shows, found, held⟩
  have form : entry.form = entered.form := shows.form
  simp only [observe, held, form]
  refine (Alike.same (R := Eq) (fun _ => rfl) _).bind ?_
  rintro next _ rfl
  exact .ok (shows.set found next)

/-- Where nobody comes between a look and an entry, or between an entry and an observation, the
calls come to what observing in the family of summaries comes to, also where they fail. -/
theorem calls_alike (form : Form) (calls : List (Instant × List String × Nat × Binary64)) :
    Alike Shows
      (calls.foldlM (fun shared (now, values, word, x) => shared.call now values word x)
        ({ form } : SharedVec))
      (calls.foldlM (fun vec (now, values, word, x) => vec.observe now values word x)
        ({ form } : SummaryVec)) :=
  Alike.foldlM (fun _ _ (now, values, word, x) shows => call_alike shows now values word x)
    (Shows.start form) calls

end SharedVec

end HedgedStore
