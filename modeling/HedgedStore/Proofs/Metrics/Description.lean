import HedgedStore.Metrics.Description
import Mathlib.Data.List.Nodup
import Mathlib.Data.List.Sort
import Mathlib.Data.String.Basic

/-! The labels of a metric. A description without a fault has no label twice, so the labels of a
series stand in the order of their names, each beside the value given for it. -/
namespace HedgedStore.Description

theorem nodup_of_labelFault {before labels : List String} (clean : labelFault? before labels = none) :
    labels.Nodup ∧ ∀ label ∈ labels, label ∉ before := by
  induction labels generalizing before with
  | nil => simp
  | cons label rest ih =>
    unfold labelFault? at clean
    split at clean
    · cases clean
    · split at clean
      · cases clean
      · rename_i fresh
        obtain ⟨nodup, apart⟩ := ih clean
        constructor
        · apply List.nodup_cons.mpr
          refine ⟨fun again => ?_, nodup⟩
          exact apart label again List.mem_cons_self
        · intro other member
          rcases List.mem_cons.mp member with rfl | later
          · simpa using fresh
          · exact fun seen => apart other later (List.mem_cons_of_mem label seen)

theorem valid_of_labelFault {before labels : List String}
    (clean : labelFault? before labels = none) :
    ∀ label ∈ labels, isName startsLabelName label = true := by
  induction labels generalizing before with
  | nil => simp
  | cons label rest ih =>
    unfold labelFault? at clean
    split at clean
    · cases clean
    · rename_i valid
      split at clean
      · cases clean
      · intro other member
        rcases List.mem_cons.mp member with rfl | later
        · simpa using valid
        · exact ih clean other later

theorem valid_of_fault {d : Description} (clean : d.fault? = none) :
    isName startsMetricName d.name = true ∧
      ∀ label ∈ d.labels, isName startsLabelName label = true := by
  unfold fault? at clean
  split at clean
  · cases clean
  · split at clean
    · cases clean
    · rename_i named
      exact ⟨by simpa using named, valid_of_labelFault clean⟩

theorem fault_eq_none {d : Description} (clean : d.fault? = none) :
    d.labels.Nodup ∧ ({ d with labels := [] } : Description).fault? = none := by
  unfold fault? at clean ⊢
  split at clean
  · cases clean
  · split at clean
    · cases clean
    · rename_i helped named
      refine ⟨(nodup_of_labelFault clean).1, ?_⟩
      simp [helped, named, labelFault?]

/-! Labels with their values. -/

def PairLE (a b : String × String) : Prop := a.1 < b.1 ∨ (a.1 = b.1 ∧ a.2 ≤ b.2)

theorem PairLE.trans {a b c : String × String} (first : PairLE a b) (second : PairLE b c) :
    PairLE a c := by
  unfold PairLE at *
  rcases first with first | ⟨first, le⟩ <;> rcases second with second | ⟨second, le'⟩
  · exact .inl (lt_trans first second)
  · exact .inl (second ▸ first)
  · exact .inl (first ▸ second)
  · exact .inr ⟨first.trans second, le_trans le le'⟩

theorem PairLE.total (a b : String × String) : PairLE a b ∨ PairLE b a := by
  unfold PairLE
  rcases lt_trichotomy a.1 b.1 with less | same | more
  · exact .inl (.inl less)
  · rcases le_total a.2 b.2 with le | ge
    · exact .inl (.inr ⟨same, le⟩)
    · exact .inr (.inr ⟨same.symm, ge⟩)
  · exact .inr (.inl more)

variable (d : Description) (values : List String)

theorem named_perm : (d.named values).Perm (d.labels.zip values) := List.mergeSort_perm _ _

theorem named_sorted : (d.named values).Pairwise PairLE := by
  unfold named
  refine (List.pairwise_mergeSort ?_ ?_ _).imp ?_
  all_goals simp only [Bool.or_eq_true, Bool.and_eq_true, Bool.not_eq_true', decide_eq_true_eq,
    decide_eq_false_iff_not, beq_iff_eq, not_lt]
  · exact fun a b c first second => PairLE.trans first second
  · exact PairLE.total
  · exact fun sorted => sorted

theorem names_named (fits : values.length = d.labels.length) :
    ((d.named values).map (·.1)).Perm d.labels := by
  have zipped := (d.named_perm values).map (·.1)
  rwa [List.map_fst_zip (Nat.le_of_eq fits.symm)] at zipped

theorem named_increasing (nodup : d.labels.Nodup) (fits : values.length = d.labels.length) :
    (d.named values).Pairwise fun a b => a.1 < b.1 := by
  have names := names_named d values fits
  have distinct : (d.named values).Pairwise fun a b => a.1 ≠ b.1 :=
    List.pairwise_map.mp (names.nodup_iff.mpr nodup)
  refine ((d.named_sorted values).and distinct).imp ?_
  rintro a b ⟨less | ⟨same, -⟩, apart⟩
  · exact less
  · exact absurd same apart

/-- The labels of a series tell its values. -/
theorem named_inj {d : Description} {values values' : List String} (nodup : d.labels.Nodup)
    (fits : values.length = d.labels.length) (fits' : values'.length = d.labels.length)
    (within : ∀ label ∈ d.named values, label ∈ d.named values') : values = values' := by
  apply List.ext_getElem (fits.trans fits'.symm)
  intro i inside inside'
  have there : (d.labels[i], values[i]) ∈ d.labels.zip values' := by
    apply (named_perm d values').mem_iff.mp
    apply within
    apply (named_perm d values).mem_iff.mpr
    rw [← List.getElem_zip (h := by rw [List.length_zip]; omega)]
    exact List.getElem_mem _
  obtain ⟨j, short, found⟩ := List.getElem_of_mem there
  rw [List.getElem_zip] at found
  obtain ⟨label, value⟩ := Prod.mk.inj found
  obtain rfl := (List.Nodup.getElem_inj_iff nodup).mp label
  exact value.symm

end HedgedStore.Description
