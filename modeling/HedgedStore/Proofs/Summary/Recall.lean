import HedgedStore.Proofs.Number.Order
import HedgedStore.Proofs.Summary.Rotation

/-! A window beside the log of everything that was stored in it. Each slice holds the values that
were stored while it was the newest one, an entry has left the window exactly when its slice has
been turned out, and so the log alone tells what the window shows. -/
namespace HedgedStore.Summary

/-- A value stored at an instant, in the slice whose time was over at the deadline. No two slices
that were ever the newest have the same deadline. -/
structure Entry where
  value : Binary64
  made : Instant
  deadline : Instant
deriving DecidableEq, Repr

namespace Entry

variable {plan : Plan} {now later deadline : Instant} {e : Entry} {place : Nat}

/-- The entry's slice is in the window: fewer slices than the window has have followed it. -/
def isLive (plan : Plan) (now : Instant) (e : Entry) : Bool :=
  now.nanos < e.deadline.nanos + (plan.slices - 1) * plan.slice.nanos

/-- The entry is in the slice at this place of a window with this deadline. -/
def isAt (plan : Plan) (deadline : Instant) (place : Nat) (e : Entry) : Bool :=
  e.deadline.nanos + place * plan.slice.nanos = deadline.nanos

theorem isLive_iff : e.isLive plan now ↔
    now.nanos < e.deadline.nanos + (plan.slices - 1) * plan.slice.nanos :=
  decide_eq_true_iff

theorem isAt_iff : e.isAt plan deadline place ↔
    e.deadline.nanos + place * plan.slice.nanos = deadline.nanos :=
  decide_eq_true_iff

theorem isAt_inj (positive : 0 < plan.slice.nanos) {p q : Nat}
    (first : e.isAt plan deadline p) (second : e.isAt plan deadline q) : p = q := by
  rw [isAt_iff] at first second
  exact Nat.mul_right_cancel positive (by omega)

theorem isAt_zero : isAt plan deadline 0 = fun e => decide (e.deadline = deadline) := by
  funext ⟨value, made, ⟨nanos⟩⟩
  obtain ⟨other⟩ := deadline
  simp [isAt]

/-- An entry is so many places further on in a window that has taken so many turns. -/
theorem isAt_shift (e : Entry) (place turns : Nat) : e.isAt plan deadline place =
    e.isAt plan ⟨deadline.nanos + plan.slice.nanos * turns⟩ (place + turns) := by
  rw [Bool.eq_iff_iff, isAt_iff, isAt_iff, Nat.add_mul, Nat.mul_comm plan.slice.nanos]
  dsimp only
  omega

theorem isLive_of_isAt (here : e.isAt plan deadline place) (inside : place < plan.slices)
    (ahead : now.nanos < deadline.nanos) : e.isLive plan now := by
  have le : place * plan.slice.nanos ≤ (plan.slices - 1) * plan.slice.nanos :=
    Nat.mul_le_mul_right _ (Nat.le_sub_one_of_lt inside)
  rw [isAt_iff] at here
  rw [isLive_iff]
  omega

theorem not_isLive_mono (le : now.nanos ≤ later.nanos) (past : ¬ e.isLive plan now) :
    ¬ e.isLive plan later := by
  rw [isLive_iff] at *
  omega

end Entry

/-- The values of the entries with a property, in the order in which they were stored. -/
def valuesOf (p : Entry → Bool) (entries : List Entry) : List Binary64 :=
  (entries.filter p).map (·.value)

theorem valuesOf_eq_nil {p : Entry → Bool} {entries : List Entry} (h : ∀ e ∈ entries, ¬ p e) :
    valuesOf p entries = [] := by
  rw [valuesOf, List.filter_eq_nil_iff.mpr h, List.map_nil]

theorem filter_append_filter_perm {α : Type} {p q r : α → Bool} {as : List α}
    (either : ∀ a ∈ as, r a = (p a || q a)) (apart : ∀ a ∈ as, p a → ¬ q a) :
    (as.filter p ++ as.filter q).Perm (as.filter r) := by
  have left : as.filter p = (as.filter r).filter p := by
    rw [List.filter_filter]
    refine List.filter_congr fun a mem => ?_
    rw [either a mem]
    cases p a <;> rfl
  have right : as.filter q = (as.filter r).filter fun a => !p a := by
    rw [List.filter_filter]
    refine List.filter_congr fun a mem => ?_
    rw [either a mem]
    cases first : p a with
    | false => rfl
    | true => simpa using apart a mem first
  rw [left, right]
  exact List.filter_append_perm p (as.filter r)

/-- Slices that hold the values at their places hold, all together, the values at any place. -/
theorem samples_perm {slices : List Reservoir} {entries : List Entry}
    (place : Nat → Entry → Bool) (anywhere : Entry → Bool)
    (apart : ∀ e i j, place i e → place j e → i = j)
    (kept : ∀ i slice, slices[i]? = some slice → slice.samples.toList = valuesOf (place i) entries)
    (split : ∀ e ∈ entries, anywhere e ↔ ∃ i < slices.length, place i e) :
    (slices.flatMap fun slice => slice.samples.toList).Perm (valuesOf anywhere entries) := by
  induction slices generalizing place anywhere with
  | nil =>
    rw [valuesOf_eq_nil fun e mem here => ?_]
    · exact .nil
    · obtain ⟨i, inside, -⟩ := (split e mem).mp here
      exact absurd inside (Nat.not_lt_zero i)
  | cons slice older ih =>
    have first : slice.samples.toList = valuesOf (place 0) entries := kept 0 slice rfl
    have rest := ih (fun i => place (i + 1))
      (fun e => decide (∃ i < older.length, place (i + 1) e))
      (fun e i j here there => Nat.succ.inj (apart e _ _ here there))
      (fun i other found => kept (i + 1) other found) (fun e _ => decide_eq_true_iff)
    rw [List.flatMap_cons, first]
    refine (rest.append_left _).trans ?_
    rw [valuesOf, valuesOf, ← List.map_append]
    refine List.Perm.map _ (filter_append_filter_perm (fun e mem => ?_) fun e _ here => ?_)
    · rw [Bool.eq_iff_iff, Bool.or_eq_true, decide_eq_true_iff, split e mem]
      constructor
      · rintro ⟨i, inside, here⟩
        cases i with
        | zero => exact .inl here
        | succ i => exact .inr ⟨i, Nat.lt_of_succ_lt_succ inside, here⟩
      · rintro (here | ⟨i, inside, here⟩)
        · exact ⟨0, Nat.succ_pos _, here⟩
        · exact ⟨i + 1, Nat.succ_lt_succ inside, here⟩
    · rw [decide_eq_true_iff]
      rintro ⟨i, -, there⟩
      exact absurd (apart e _ _ here there) (Nat.succ_ne_zero i).symm

namespace Window

/-- The window at an instant is what the log of its entries tells. -/
structure Recalls (plan : Plan) (window : Window) (entries : List Entry) (now : Instant) :
    Prop where
  width : window.slices.length = plan.slices
  /-- The newest slice's time is running. -/
  running : now.nanos < window.deadline.nanos ∧
    window.deadline.nanos ≤ now.nanos + plan.slice.nanos
  timely : ∀ e ∈ entries, e.made.nanos < e.deadline.nanos ∧
    e.deadline.nanos ≤ e.made.nanos + plan.slice.nanos
  kept : ∀ place slice, window.slices[place]? = some slice →
    slice.samples.toList = valuesOf (Entry.isAt plan window.deadline place) entries
  settled : ∀ e ∈ entries,
    (∃ place < plan.slices, e.isAt plan window.deadline place) ∨ ¬ e.isLive plan now

variable {plan : Plan} {window next : Window} {entries : List Entry} {now later : Instant}

theorem Recalls.create (positive : 0 < plan.slice.nanos)
    (created : Window.create plan now = some window) : Recalls plan window [] now := by
  obtain ⟨deadline, counted, created⟩ := Option.bind_eq_some_iff.mp created
  obtain rfl := Option.some.inj created
  obtain rfl := after_eq_some counted
  refine ⟨List.length_replicate, ⟨?_, Nat.le_refl _⟩, nofun, ?_, nofun⟩
  · exact Nat.lt_add_of_pos_right positive
  · intro place slice found
    obtain rfl := List.eq_of_mem_replicate (List.mem_of_getElem? found)
    rfl

theorem Recalls.deadline_le (recalls : Recalls plan window entries now) {e : Entry}
    (mem : e ∈ entries) : e.deadline.nanos ≤ window.deadline.nanos := by
  have running := recalls.running
  rcases recalls.settled e mem with ⟨place, -, here⟩ | past
  · rw [Entry.isAt_iff] at here
    omega
  · rw [Entry.isLive_iff] at past
    omega

theorem Recalls.afresh (positive : 0 < plan.slice.nanos)
    (recalls : Recalls plan window entries now)
    (idle : window.deadline.nanos + plan.slice.nanos * plan.slices ≤ later.nanos) :
    Recalls plan { window with
      slices := renew plan plan.slices window.slices
      deadline := ⟨later.nanos + plan.slice.nanos⟩ } entries later := by
  have length := renew_length plan.slices recalls.width
  refine ⟨length, ⟨?_, Nat.le_refl _⟩, recalls.timely, ?_, ?_⟩
  · exact Nat.lt_add_of_pos_right positive
  · intro place slice found
    have inside : place < plan.slices := length ▸ (List.getElem?_eq_some_iff.mp found).1
    rw [getElem?_renew inside, if_pos inside] at found
    obtain rfl := Option.some.inj found
    refine (valuesOf_eq_nil fun e mem here => ?_).symm
    have behind := recalls.deadline_le mem
    have short : place * plan.slice.nanos ≤ plan.slice.nanos * plan.slices := by
      rw [Nat.mul_comm]
      exact Nat.mul_le_mul_left _ inside.le
    rw [Entry.isAt_iff] at here
    dsimp only at here
    omega
  · intro e mem
    right
    have behind := recalls.deadline_le mem
    have most : (plan.slices - 1) * plan.slice.nanos ≤ plan.slice.nanos * plan.slices := by
      rw [Nat.mul_comm]
      exact Nat.mul_le_mul_left _ (Nat.sub_le _ 1)
    rw [Entry.isLive_iff]
    omega

theorem Recalls.onward (positive : 0 < plan.slice.nanos)
    (recalls : Recalls plan window entries now) (le : now.nanos ≤ later.nanos) {turns : Nat}
    (first : 1 ≤ turns)
    (due : window.deadline.nanos + plan.slice.nanos * (turns - 1) ≤ later.nanos)
    (ahead : later.nanos < window.deadline.nanos + plan.slice.nanos * turns) :
    Recalls plan { window with
      slices := renew plan turns window.slices
      deadline := ⟨window.deadline.nanos + plan.slice.nanos * turns⟩ } entries later := by
  have length := renew_length turns recalls.width
  refine ⟨length, ⟨ahead, ?_⟩, recalls.timely, ?_, ?_⟩
  · obtain ⟨turns, rfl⟩ := Nat.exists_eq_add_of_le' first
    rw [Nat.add_sub_cancel] at due
    simp only [Nat.mul_succ]
    omega
  · intro place slice found
    have inside : place < plan.slices := length ▸ (List.getElem?_eq_some_iff.mp found).1
    rw [getElem?_renew inside] at found
    split at found
    · rename_i newer
      obtain rfl := Option.some.inj found
      refine (valuesOf_eq_nil fun e mem here => ?_).symm
      have behind := recalls.deadline_le mem
      have short : place * plan.slice.nanos < plan.slice.nanos * turns := by
        rw [Nat.mul_comm]
        exact Nat.mul_lt_mul_of_pos_left newer positive
      rw [Entry.isAt_iff] at here
      dsimp only at here
      omega
    · rename_i older
      obtain ⟨before, rfl⟩ := Nat.exists_eq_add_of_le' (Nat.le_of_not_lt older)
      rw [Nat.add_sub_cancel] at found
      rw [recalls.kept before slice found]
      exact congrArg (valuesOf · entries) (funext fun e => e.isAt_shift before turns)
  · intro e mem
    rcases recalls.settled e mem with ⟨place, -, here⟩ | past
    -- An entry in the window has moved on, and is out of it if that is beyond the last slice.
    · by_cases inside : place + turns < plan.slices
      · exact .inl ⟨place + turns, inside, e.isAt_shift place turns ▸ here⟩
      · right
        obtain ⟨turns, rfl⟩ := Nat.exists_eq_add_of_le' first
        have far : (plan.slices - 1) * plan.slice.nanos ≤ (place + turns) * plan.slice.nanos :=
          Nat.mul_le_mul_right _ (by omega)
        rw [Nat.add_sub_cancel, Nat.mul_comm] at due
        rw [Entry.isAt_iff] at here
        rw [Entry.isLive_iff]
        rw [Nat.add_mul] at far
        omega
    · exact .inr (Entry.not_isLive_mono le past)

theorem Recalls.rotate (positive : 0 < plan.slice.nanos)
    (recalls : Recalls plan window entries now) (le : now.nanos ≤ later.nanos)
    (rotated : window.rotate plan later = some next) : Recalls plan next entries later := by
  cases turned rotated with
  | still early =>
    have running := recalls.running
    exact {
      width := recalls.width
      running := by omega
      timely := recalls.timely
      kept := recalls.kept
      settled := fun e mem => (recalls.settled e mem).imp_right (Entry.not_isLive_mono le) }
  | afresh idle => exact recalls.afresh positive idle
  | onward turns first within due ahead => exact recalls.onward positive le first due ahead

/-- What is stored is the newest slice's, as long as that slice has room for it. -/
theorem Recalls.store (positive : 0 < plan.slice.nanos) (nonempty : 0 < plan.slices)
    (recalls : Recalls plan window entries now) (word : Nat) (x : Binary64)
    (room : entries.countP (·.deadline = window.deadline) < plan.capacity) :
    Recalls plan (window.store plan word x) (entries ++ [⟨x, now, window.deadline⟩]) now := by
  obtain ⟨slices, deadline, count, sum⟩ := window
  have width := recalls.width
  cases slices with
  | nil => exact absurd width nonempty.ne
  | cons newest older =>
    have here : (⟨x, now, deadline⟩ : Entry).isAt plan deadline 0 := by
      simp [Entry.isAt_zero]
    refine ⟨width, recalls.running, ?_, ?_, ?_⟩
    · intro e mem
      rcases List.mem_append.mp mem with mem | mem
      · exact recalls.timely e mem
      · obtain rfl := List.mem_singleton.mp mem
        exact recalls.running
    · intro place slice found
      cases place with
      | zero =>
        obtain rfl := Option.some.inj found
        have before := recalls.kept 0 newest rfl
        have short : newest.samples.size < plan.capacity := by
          rw [← Array.length_toList, before, valuesOf, List.length_map,
            ← List.countP_eq_length_filter, Entry.isAt_zero]
          exact room
        rw [Reservoir.observe, if_pos short, Array.toList_push, before]
        simp [valuesOf, List.filter_append, here, Window.store]
      | succ place =>
        have apart : ¬ (⟨x, now, deadline⟩ : Entry).isAt plan deadline (place + 1) := fun there =>
          absurd (Entry.isAt_inj positive here there) (Nat.succ_ne_zero place).symm
        rw [recalls.kept (place + 1) slice found]
        simp [valuesOf, List.filter_append, apart, Window.store]
    · intro e mem
      rcases List.mem_append.mp mem with mem | mem
      · exact recalls.settled e mem
      · obtain rfl := List.mem_singleton.mp mem
        exact .inl ⟨0, nonempty, here⟩

/-- The sorted samples of a window are the sorted values of the live entries. -/
theorem Recalls.sorted_eq (positive : 0 < plan.slice.nanos)
    (recalls : Recalls plan window entries now) :
    window.sorted = (valuesOf (Entry.isLive plan now) entries).mergeSort Binary64.atMost := by
  refine Binary64.mergeSort_eq_of_perm
    (samples_perm (Entry.isAt plan window.deadline) _ (fun e i j => Entry.isAt_inj positive)
      recalls.kept fun e mem => ?_)
  rw [recalls.width]
  constructor
  · intro live
    exact (recalls.settled e mem).resolve_right (not_not_intro live)
  · rintro ⟨place, inside, here⟩
    exact Entry.isLive_of_isAt here inside recalls.running.1

theorem Recalls.isLive_of_young (recalls : Recalls plan window entries now) {e : Entry}
    (mem : e ∈ entries) (young : (now.since e.made).nanos < (plan.slices - 1) * plan.slice.nanos) :
    e.isLive plan now := by
  have made := (recalls.timely e mem).1
  simp only [Instant.since] at young
  rw [Entry.isLive_iff]
  omega

theorem Recalls.not_isLive_of_old (nonempty : 0 < plan.slices)
    (recalls : Recalls plan window entries now) {e : Entry} (mem : e ∈ entries)
    (old : plan.slices * plan.slice.nanos ≤ (now.since e.made).nanos) : ¬ e.isLive plan now := by
  have made := recalls.timely e mem
  obtain ⟨rest, whole⟩ := Nat.exists_eq_add_of_le' nonempty
  rw [whole, Nat.succ_mul, Instant.since] at old
  rw [Entry.isLive_iff, whole, Nat.add_sub_cancel]
  dsimp only at old
  omega

end Window

end HedgedStore.Summary
