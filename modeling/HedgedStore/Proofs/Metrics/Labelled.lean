import HedgedStore.Metrics.Labelled
import Mathlib.Data.List.Forall2
import Mathlib.Data.Option.Basic
import Mathlib.Data.String.Basic
import Mathlib.Logic.Function.Basic

/-! Things by label values, seen as a partial function of the values. Putting one of them in changes
the function at its own values only, and the entries stay in the order of the values, each tuple
once. -/
namespace HedgedStore.Labelled

variable {α : Type} {values other : List String} {a : α} {entries : List (List String × α)}

theorem lookup_cons (entry : List String × α) (rest : List (List String × α)) :
    (entry :: rest).lookup other = if other = entry.1 then some entry.2 else rest.lookup other := by
  rw [List.lookup_cons]
  by_cases here : other = entry.1
  · simp [here]
  · simp [here, beq_eq_false_iff_ne.mpr here]

theorem lookup_insertEntry (absent : entries.lookup values = none) :
    (insertEntry values a entries).lookup other =
      if other = values then some a else entries.lookup other := by
  induction entries with
  | nil => simp [insertEntry, lookup_cons]
  | cons entry rest ih =>
    rw [lookup_cons] at absent
    split at absent
    · cases absent
    · rename_i apart
      unfold insertEntry
      split
      · rw [lookup_cons]
      · rw [lookup_cons, lookup_cons, ih absent]
        by_cases here : other = entry.1
        · subst here
          simp [Ne.symm apart]
        · simp [here]

theorem lookup_replaceEntry (present : entries.lookup values ≠ none) :
    (replaceEntry values a entries).lookup other =
      if other = values then some a else entries.lookup other := by
  induction entries with
  | nil => simp at present
  | cons entry rest ih =>
    unfold replaceEntry
    split
    · rename_i found
      rw [lookup_cons, lookup_cons, found]
      split <;> rfl
    · rename_i apart
      have present_rest : rest.lookup values ≠ none := by
        rwa [lookup_cons, if_neg (Ne.symm apart)] at present
      rw [lookup_cons, lookup_cons, ih present_rest]
      by_cases here : other = entry.1
      · subst here
        simp [apart]
      · simp [here]

theorem find_insert (family : Labelled α) (values : List String) (a : α) :
    (family.insert values a).find? = Function.update family.find? values (some a) := by
  funext other
  rw [Function.update_apply]
  unfold insert
  cases found : family.find? values with
  | none => exact lookup_insertEntry found
  | some before => exact lookup_replaceEntry (ne_of_eq_of_ne found nofun)

/-! The order of the entries. -/

/-- Each tuple of values once, and in order. -/
def Ordered (entries : List (List String × α)) : Prop := entries.Pairwise fun a b => a.1 < b.1

theorem mem_insertEntry {entry : List String × α} :
    entry ∈ insertEntry values a entries ↔ entry = (values, a) ∨ entry ∈ entries := by
  induction entries with
  | nil => simp [insertEntry]
  | cons first rest ih =>
    unfold insertEntry
    split
    · simp
    · simp [ih, or_left_comm]

theorem keys_replaceEntry : (replaceEntry values a entries).map (·.1) = entries.map (·.1) := by
  induction entries with
  | nil => rfl
  | cons entry rest ih =>
    unfold replaceEntry
    split
    · rename_i found
      simp [found]
    · simp [ih]

theorem ordered_iff : Ordered entries ↔ (entries.map (·.1)).Pairwise (· < ·) :=
  List.pairwise_map.symm

theorem Ordered.insertEntry (ordered : Ordered entries) (absent : entries.lookup values = none) :
    Ordered (insertEntry values a entries) := by
  induction entries with
  | nil => exact List.pairwise_singleton _ _
  | cons entry rest ih =>
    obtain ⟨first, ordered_rest⟩ := List.pairwise_cons.mp ordered
    have apart : values ≠ entry.1 := by
      rintro rfl
      simp [lookup_cons] at absent
    have absent_rest : rest.lookup values = none := by
      rwa [lookup_cons, if_neg apart] at absent
    unfold Labelled.insertEntry
    split
    · rename_i before
      apply List.Pairwise.cons
      · intro later member
        rcases List.mem_cons.mp member with rfl | member
        · exact before
        · exact lt_trans before (first later member)
      · exact ordered
    · rename_i behind
      apply List.Pairwise.cons
      · intro later member
        rcases mem_insertEntry.mp member with rfl | member
        · exact lt_of_le_of_ne (le_of_not_gt behind) apart.symm
        · exact first later member
      · exact ih ordered_rest absent_rest

theorem Ordered.insert {family : Labelled α} (ordered : Ordered family.entries)
    (values : List String) (a : α) : Ordered (family.insert values a).entries := by
  unfold Labelled.insert
  cases found : family.find? values with
  | none => exact ordered.insertEntry found
  | some before => rwa [ordered_iff, keys_replaceEntry, ← ordered_iff]

theorem Ordered.lookup_of_mem (ordered : Ordered entries) {entry : List String × α}
    (member : entry ∈ entries) : entries.lookup entry.1 = some entry.2 := by
  induction entries with
  | nil => cases member
  | cons first rest ih =>
    obtain ⟨before, ordered_rest⟩ := List.pairwise_cons.mp ordered
    rw [lookup_cons]
    rcases List.mem_cons.mp member with rfl | member
    · rw [if_pos rfl]
    · rw [if_neg (before entry member).ne', ih ordered_rest member]

theorem mem_keys_iff : values ∈ entries.map (·.1) ↔ entries.lookup values ≠ none := by
  induction entries with
  | nil => simp
  | cons entry rest ih =>
    rw [List.map_cons, List.mem_cons, ih, lookup_cons]
    by_cases here : values = entry.1 <;> simp [here]

/-- Where the things change and their values do not, what is found changes as they do. -/
theorem lookup_forall₂ {β : Type} {changes : α → β → Prop} {later : List (List String × β)}
    (changed : List.Forall₂ (fun a b => a.1 = b.1 ∧ changes a.2 b.2) entries later)
    (values : List String) : Option.Rel changes (entries.lookup values) (later.lookup values) := by
  induction changed with
  | nil => exact .none
  | @cons entry next rest others first _ ih =>
    obtain ⟨same, change⟩ := first
    rw [lookup_cons, lookup_cons, ← same]
    split
    · exact .some change
    · exact ih

theorem keys_forall₂ {β : Type} {changes : α → β → Prop} {later : List (List String × β)}
    (changed : List.Forall₂ (fun a b => a.1 = b.1 ∧ changes a.2 b.2) entries later) :
    later.map (·.1) = entries.map (·.1) := by
  induction changed with
  | nil => rfl
  | cons first _ ih => rw [List.map_cons, List.map_cons, first.1, ih]

end HedgedStore.Labelled
