import HedgedStore.Proofs.Metrics.Exposition
import HedgedStore.Proofs.Number.Decimals
import HedgedStore.Proofs.Summary.Ranking
import HedgedStore.Proofs.Summary.Series

/-! The lines of a summary among each other. A line shows a quantile, the sum or the count of one
series, and says so by its name and its labels. Quantiles that are asked for twice and a label that
is called like that of the quantiles are the only things that make two lines say the same, or one
line say two things. -/
namespace HedgedStore.Summary

open Exposition (Named Sample ToldApart inName lines samples)

/-- Which of its numbers a series shows. -/
inductive Part where
  | quantile (q : Binary64)
  | sum
  | count
deriving DecidableEq, Repr

namespace Part

def name (base : String) : Part → String
  | quantile _ => base
  | sum => base ++ "_sum"
  | count => base ++ "_count"

def labels : Part → List (String × String)
  | quantile q => [("quantile", q.text)]
  | sum | count => []

def all (quantiles : List Binary64) : List Part := quantiles.map quantile ++ [sum, count]

end Part

/-- What the line of a part of the series with these values is about. -/
def identity (d : Description) (place : List String × Part) : String × List (String × String) :=
  (place.2.name d.name, d.named place.1 ++ place.2.labels)

/-- A series with these values shows these quantiles. -/
def Shows (d : Description) (quantiles : List Binary64) (values : List String) (series : Series) :
    Prop :=
  series.labels = d.named values ∧
    ∃ shown, series.reading = .summary shown ∧ shown.quantiles.map (·.1) = quantiles

/-- The series of a family, each with the values that it stands for. -/
structure Sheet (d : Description) (quantiles : List Binary64) (tuples : List (List String))
    (family : Family) : Prop where
  name : family.name = d.name
  nodup : tuples.Nodup
  fits : ∀ values ∈ tuples, values.length = d.labels.length
  series : List.Forall₂ (Shows d quantiles) tuples family.series

section Lines

variable {d : Description} {quantiles : List Binary64} {tuples : List (List String)}
  {family : Family} {values values' : List String} {part part' : Part}

theorem Shows.identities {series : Series} (shows : Shows d quantiles values series) :
    (samples d.name series).map Sample.identity =
      (Part.all quantiles).map fun part => identity d (values, part) := by
  obtain ⟨labels, shown, reading, rfl⟩ := shows
  simp [samples, reading, labels, Sample.identity, Part.all, identity, Part.name, Part.labels]

theorem series_identities {series : List Series}
    (shows : List.Forall₂ (Shows d quantiles) tuples series) :
    (series.flatMap (samples d.name)).map Sample.identity =
      (tuples ×ˢ Part.all quantiles).map (identity d) := by
  induction shows with
  | nil => rfl
  | cons first _ ih =>
    rw [List.flatMap_cons, List.map_append, first.identities, ih, List.product_cons,
      List.map_append, List.map_map]
    rfl

theorem Sheet.identities (sheet : Sheet d quantiles tuples family) :
    ((lines family).map Sample.identity).Perm
      ((tuples ×ˢ Part.all quantiles).map (identity d)) := by
  have sorted : (lines family).Perm (family.series.flatMap (samples family.name)) :=
    (List.mergeSort_perm _ _).flatMap_right _
  rw [← series_identities sheet.series, ← sheet.name]
  exact sorted.map _

/-- The name of a line tells the quantiles, the sum and the count from each other. -/
theorem Part.name_inj {base : String} (same : part.name base = part'.name base) :
    (∃ q q', part = quantile q ∧ part' = quantile q') ∨
      (part = part' ∧ part.labels = []) := by
  have length := congrArg String.length same
  have sum_length : (base ++ "_sum").length = base.length + 4 := String.length_append _ _
  have count_length : (base ++ "_count").length = base.length + 6 := String.length_append _ _
  cases part <;> cases part'
  case quantile.quantile q q' => exact .inl ⟨q, q', rfl, rfl⟩
  case sum.sum => exact .inr ⟨rfl, rfl⟩
  case count.count => exact .inr ⟨rfl, rfl⟩
  all_goals
    simp only [name] at length
    omega

theorem quantile_notMem (free : "quantile" ∉ d.labels) (fits : values.length = d.labels.length)
    (text : String) : ("quantile", text) ∉ d.named values := by
  intro mem
  apply free
  apply (d.names_named values fits).mem_iff.mp
  exact List.mem_map_of_mem mem

/-- Where no label is called like that of the quantiles, a line tells its series and its part. -/
theorem identity_inj (nodup : d.labels.Nodup) (fits : values.length = d.labels.length)
    (fits' : values'.length = d.labels.length)
    (free : ∀ q, part = .quantile q → "quantile" ∉ d.labels)
    (finite : ∀ q, part = .quantile q → q.isFinite = true)
    (finite' : ∀ q, part' = .quantile q → q.isFinite = true)
    (names : (identity d (values, part)).1 = (identity d (values', part')).1)
    (labels : ∀ label, label ∈ (identity d (values, part)).2 ↔
      label ∈ (identity d (values', part')).2) :
    (values, part) = (values', part') := by
  dsimp only [identity] at names labels
  rcases Part.name_inj names with ⟨q, q', rfl, rfl⟩ | ⟨rfl, nothing⟩
  · have unnamed := free q rfl
    have absent := quantile_notMem unnamed fits
    have absent' := quantile_notMem unnamed fits'
    simp only [Part.labels, List.mem_append, List.mem_singleton] at labels
    have same_text : q.text = q'.text := by
      simpa [absent'] using (labels ("quantile", q.text)).mp (.inr rfl)
    have same_values : values = values' := by
      apply Description.named_inj nodup fits fits'
      intro label mem
      rcases (labels label).mp (.inl mem) with there | last
      · exact there
      · exact absurd (last ▸ mem) (absent q'.text)
    rw [same_values, Binary64.text_injective (finite q rfl) (finite' q' rfl) same_text]
  · rw [nothing, List.append_nil, List.append_nil] at labels
    rw [Description.named_inj nodup fits fits' fun label => (labels label).mp]

theorem nodup_all : (Part.all quantiles).Nodup ↔ quantiles.Nodup := by
  have injective : Function.Injective Part.quantile := fun q q' same => Part.quantile.inj same
  unfold Part.all
  rw [List.nodup_append, List.nodup_map_iff injective]
  simp

theorem names_nodup (nodup : d.labels.Nodup) (fits : values.length = d.labels.length) :
    ((identity d (values, part)).2.map (·.1)).Nodup ↔
      ∀ q, part = .quantile q → "quantile" ∉ d.labels := by
  have names := d.names_named values fits
  unfold identity
  rw [List.map_append, List.nodup_append, names.nodup_iff]
  cases part with
  | quantile q => simp [Part.labels, nodup, names.mem_iff, List.forall_mem_ne']
  | sum => simp [Part.labels, nodup]
  | count => simp [Part.labels, nodup]

theorem quantile_mem_all {q : Binary64} : Part.quantile q ∈ Part.all quantiles ↔ q ∈ quantiles := by
  simp [Part.all]

theorem regular_of_toldApart {q : Binary64} (nodup : d.labels.Nodup)
    (fits : values.length = d.labels.length)
    (told : ToldApart (((values :: tuples) ×ˢ Part.all (q :: quantiles)).map (identity d))) :
    "quantile" ∉ d.labels ∧ (q :: quantiles).Nodup := by
  constructor
  · have place : (values, Part.quantile q) ∈ (values :: tuples) ×ˢ Part.all (q :: quantiles) :=
      List.mem_product.mpr ⟨List.mem_cons_self, quantile_mem_all.mpr List.mem_cons_self⟩
    have once := told.labels _ (List.mem_map_of_mem place)
    exact (names_nodup nodup fits).mp once q rfl
  · have places := told.nodup.of_map
    rw [List.product_cons, List.nodup_append] at places
    exact nodup_all.mp places.1.of_map

theorem toldApart_of_regular (nodup : d.labels.Nodup) (apart : tuples.Nodup)
    (fits : ∀ values ∈ tuples, values.length = d.labels.length)
    (finite : ∀ q ∈ quantiles, q.isFinite = true)
    (unnamed : ∀ q ∈ quantiles, "quantile" ∉ d.labels) (once : quantiles.Nodup) :
    ToldApart ((tuples ×ˢ Part.all quantiles).map (identity d)) := by
  constructor
  · intro line mem
    obtain ⟨⟨values, part⟩, place, rfl⟩ := List.mem_map.mp mem
    obtain ⟨values_mem, part_mem⟩ := List.mem_product.mp place
    apply (names_nodup nodup (fits values values_mem)).mpr
    rintro q rfl
    exact unnamed q (quantile_mem_all.mp part_mem)
  · apply List.pairwise_map.mpr
    apply List.Pairwise.imp_of_mem _ (apart.product (nodup_all.mpr once))
    rintro ⟨values, part⟩ ⟨values', part'⟩ place place' differ names labels
    obtain ⟨values_mem, part_mem⟩ := List.mem_product.mp place
    obtain ⟨values_mem', part_mem'⟩ := List.mem_product.mp place'
    apply differ
    apply identity_inj nodup (fits _ values_mem) (fits _ values_mem') _ _ _ names labels
    · rintro q rfl
      exact unnamed q (quantile_mem_all.mp part_mem)
    · rintro q rfl
      exact finite q (quantile_mem_all.mp part_mem)
    · rintro q rfl
      exact finite q (quantile_mem_all.mp part_mem')

/-- What makes the lines of a family say different things, and each of them one thing. -/
theorem Sheet.toldApart_iff (sheet : Sheet d quantiles tuples family) (nodup : d.labels.Nodup)
    (finite : ∀ q ∈ quantiles, q.isFinite = true) :
    ToldApart ((lines family).map Sample.identity) ↔
      tuples = [] ∨ quantiles = [] ∨ "quantile" ∉ d.labels ∧ quantiles.Nodup := by
  have same := sheet.identities
  constructor
  · intro told
    rcases tuples with _ | ⟨values, tuples⟩
    · exact .inl rfl
    rcases quantiles with _ | ⟨q, quantiles⟩
    · exact .inr (.inl rfl)
    exact .inr (.inr (regular_of_toldApart nodup (sheet.fits values List.mem_cons_self)
      (told.perm same)))
  · intro regular
    apply ToldApart.perm same.symm
    rcases regular with rfl | rfl | ⟨unnamed, once⟩
    · exact ⟨nofun, List.Pairwise.nil⟩
    · exact toldApart_of_regular nodup sheet.nodup sheet.fits finite nofun List.nodup_nil
    · exact toldApart_of_regular nodup sheet.nodup sheet.fits finite (fun _ _ => unnamed) once

theorem ending_named : ∀ ending ∈ ["quantile", "_sum", "_count"], ∀ c ∈ ending.toList,
    inName c = true := by
  simp [inName, Description.startsMetricName, Description.startsLabelName]

theorem Part.named {base : String} (named : ∀ c ∈ base.toList, inName c = true) (part : Part) :
    (∀ c ∈ (part.name base).toList, inName c = true) ∧ Named part.labels := by
  have appended {ending : String} (mem : ending ∈ ["quantile", "_sum", "_count"]) :
      ∀ c ∈ (base ++ ending).toList, inName c = true := by
    intro c char
    rw [String.toList_append] at char
    exact (List.mem_append.mp char).elim (named c) (ending_named ending mem c)
  cases part with
  | quantile q =>
    refine ⟨named, ?_⟩
    intro label mem
    obtain rfl := List.mem_singleton.mp mem
    exact ending_named "quantile" (by simp)
  | sum => exact ⟨appended (by simp), nofun⟩
  | count => exact ⟨appended (by simp), nofun⟩

theorem Sheet.named (sheet : Sheet d quantiles tuples family) (clean : d.fault? = none) :
    ∀ line ∈ lines family, (∀ c ∈ line.name.toList, inName c = true) ∧ Named line.labels := by
  obtain ⟨valid_name, valid_labels⟩ := Description.valid_of_fault clean
  have base := Exposition.inName_of_isName (fun _ starts => starts) valid_name
  intro line mem
  have there := sheet.identities.mem_iff.mp (List.mem_map_of_mem mem)
  obtain ⟨⟨values, part⟩, place, same⟩ := List.mem_map.mp there
  obtain ⟨name, labels⟩ := Prod.mk.inj same
  have fits := sheet.fits values (List.mem_product.mp place).1
  have ⟨name_chars, part_chars⟩ := part.named base
  refine ⟨name ▸ name_chars, ?_⟩
  rw [← labels]
  intro label mem
  rcases List.mem_append.mp mem with own | last
  · have listed : label.1 ∈ d.labels :=
      (d.names_named values fits).mem_iff.mp (List.mem_map_of_mem own)
    apply Exposition.inName_of_isName _ (valid_labels label.1 listed)
    intro c starts
    unfold Description.startsMetricName
    rw [starts, Bool.true_or]
  · exact part_chars label last

/-- How the numbers of a family stand in its text. -/
structure Exposed (family : Family) (unique : Prop) : Prop where
  text : Exposition.text [family] = if family.series = [] then ""
    else Exposition.heading family ++
      String.join ((lines family).map fun line => line.head ++ " " ++ line.value.text ++ "\n")
  /-- A line tells what it is about. -/
  heads : ∀ a ∈ lines family, ∀ b ∈ lines family, a.head = b.head → a.identity = b.identity
  told : ToldApart ((lines family).map Sample.identity) ↔ unique

theorem Exposed.congr {unique other : Prop} (exposed : Exposed family unique)
    (same : unique ↔ other) : Exposed family other :=
  ⟨exposed.text, exposed.heads, exposed.told.trans same⟩

theorem Sheet.empty_iff (sheet : Sheet d quantiles tuples family) :
    tuples = [] ↔ family.series = [] := by
  rw [← List.length_eq_zero_iff, sheet.series.length_eq, List.length_eq_zero_iff]

theorem Sheet.exposed (sheet : Sheet d quantiles tuples family) (clean : d.fault? = none)
    (within : ∀ q ∈ quantiles, q.inUnitInterval = true) : Exposed family
      (tuples = [] ∨ quantiles = [] ∨ "quantile" ∉ d.labels ∧ quantiles.Nodup) := by
  constructor
  case text => exact Exposition.text_eq family
  case heads =>
    intro a a_mem b b_mem same
    obtain ⟨name_a, labels_a⟩ := sheet.named clean a a_mem
    obtain ⟨name_b, labels_b⟩ := sheet.named clean b b_mem
    obtain ⟨names, labels⟩ := Exposition.head_inj name_a name_b labels_a labels_b same
    exact Prod.ext names labels
  case told =>
    apply sheet.toldApart_iff (Description.fault_eq_none clean).1
    exact fun q mem => (Binary64.regular_of_inUnitInterval (within q mem)).1

end Lines

/-! What is collected. -/

theorem Window.read_listed (window : Window) (plan : Plan) :
    (window.read plan).quantiles.map (·.1) = plan.quantiles := by
  unfold Window.read
  rw [List.map_map]
  exact List.map_id _

theorem collect_sheet {summary later : Summary} {now : Instant} {family : Family}
    (unlabelled : summary.form.description.labels = [])
    (collected : summary.collect now = .ok (family, later)) :
    Sheet summary.form.description summary.form.plan.quantiles [[]] family := by
  obtain ⟨⟨shown, next⟩, read, collected⟩ := bind_eq_ok.mp collected
  obtain ⟨rfl, rfl⟩ := Prod.mk.inj (Except.ok.inj collected)
  obtain ⟨same, -, rfl⟩ := snapshot_eq_ok read
  have shows : Shows summary.form.description summary.form.plan.quantiles []
      { reading := .summary (next.window.read summary.form.plan) } := by
    refine ⟨?_, _, rfl, Window.read_listed _ _⟩
    simp [Description.named, unlabelled]
  constructor
  · rw [← same]
  · simp
  · simp [unlabelled]
  · exact .cons shows .nil

theorem family_sheet {form alone : Form} {uses : List (Instant × SummaryVec.Use)}
    {vec later : SummaryVec} {now : Instant} {family : Family}
    (kept : SummaryVec.Kept form alone uses vec)
    (collected : vec.collect now = .ok (family, later)) :
    Sheet form.description form.plan.quantiles (vec.windows.entries.map (·.1)) family := by
  obtain ⟨read, seen, rfl, -⟩ := SummaryVec.collect_eq_ok collected
  obtain rfl := kept.form_eq
  constructor
  · rfl
  · exact (Labelled.ordered_iff.mp kept.ordered).imp fun less => less.ne
  · intro values mem
    have found := Labelled.mem_keys_iff.mp mem
    exact ((kept.mem_iff values).mp found).1
  · rw [List.forall₂_map_left_iff, List.forall₂_map_right_iff]
    apply seen.imp
    rintro ⟨values, window⟩ ⟨same, shown, next⟩ ⟨rfl, read⟩
    obtain ⟨turned, -, pair⟩ := Option.map_eq_some_iff.mp read
    obtain ⟨rfl, rfl⟩ := Prod.mk.inj pair
    exact ⟨rfl, _, rfl, Window.read_listed _ _⟩

theorem Options.quantiles_perm {options : Options} {labels : List String} {form : Form}
    (formed : options.form labels = .ok form) :
    form.plan.quantiles.Perm (options.objectives.map (·.1)) := by
  rw [(Options.plan_eq_ok (Options.form_eq_ok formed)).2]
  exact List.mergeSort_perm _ _

/-- Whatever is asked for and whatever is done: the text of a summary, and that of a family of them,
gives each line its own name and labels, with no label twice, just where no quantile is asked for
twice and, if there is one to show, no label is called like that of the quantiles. -/
theorem lines_told_apart_iff {options : Options} {labels : List String} {form : Form}
    (formed : options.form labels = .ok form) :
    (labels = [] → ∀ start uses journal now family later,
      Journal.run form start uses = .ok journal →
      journal.summary.collect now = .ok (family, later) →
      Exposed family (options.objectives.map (·.1)).Nodup) ∧
    ∀ uses vec now family later, SummaryVec.run form uses = .ok vec →
      vec.collect now = .ok (family, later) →
      Exposed family (family.series = [] ∨ options.objectives = [] ∨
        "quantile" ∉ labels ∧ (options.objectives.map (·.1)).Nodup) := by
  obtain ⟨described, clean, -⟩ := SummaryVec.form_spec formed
  have listed := Options.quantiles_perm formed
  have within := Options.quantiles_within (Options.form_eq_ok formed)
  have labels_eq : form.description.labels = labels := by rw [described]
  have unasked : form.plan.quantiles = [] ↔ options.objectives = [] := by
    rw [← List.length_eq_zero_iff, listed.length_eq, List.length_map, List.length_eq_zero_iff]
  constructor
  · intro unlabelled start uses journal now family later ran collected
    obtain rfl := (Journal.run_complete ran).form_eq
    have sheet := collect_sheet (labels_eq.trans unlabelled) collected
    apply (sheet.exposed clean within).congr
    rw [labels_eq, unlabelled, listed.nodup_iff, unasked]
    constructor
    · rintro (none_there | none_asked | ⟨-, once⟩)
      · cases none_there
      · simp [none_asked]
      · exact once
    · exact fun once => .inr (.inr ⟨nofun, once⟩)
  · intro uses vec now family later ran collected
    have kept : SummaryVec.Kept form (SummaryVec.unlabelled form) uses vec :=
      SummaryVec.run_kept rfl ran
    have sheet := family_sheet kept collected
    apply (sheet.exposed clean within).congr
    rw [labels_eq, listed.nodup_iff, unasked, sheet.empty_iff]

theorem collects {form : Form} {start now : Instant} {uses : List (Instant × Use)}
    (forward : Journal.Forward start uses now)
    (room : now.nanos + form.plan.slice.nanos < Instant.limit) :
    ∃ journal family later, Journal.run form start uses = .ok journal ∧
      journal.summary.collect now = .ok (family, later) := by
  obtain ⟨journal, ran⟩ := Journal.run_timely forward room
  rw [← (Journal.run_complete ran).form_eq] at room
  obtain ⟨shown, later, read⟩ := snapshot_timely room
  exact ⟨journal, _, later, ran, bind_eq_ok.mpr ⟨_, read, rfl⟩⟩

theorem family_collects {form : Form} {now : Instant} {uses : List (Instant × SummaryVec.Use)}
    (early : ∀ use ∈ uses, use.1.nanos + form.plan.slice.nanos < Instant.limit)
    (room : now.nanos + form.plan.slice.nanos < Instant.limit) :
    ∃ vec family later, SummaryVec.run form uses = .ok vec ∧
      vec.collect now = .ok (family, later) := by
  obtain ⟨vec, ran⟩ : ∃ vec, SummaryVec.run form uses = .ok vec := SummaryVec.steps_timely early
  have kept : SummaryVec.Kept form (SummaryVec.unlabelled form) uses vec :=
    SummaryVec.run_kept rfl ran
  rw [← kept.form_eq] at room
  obtain ⟨family, later, collected, -⟩ := SummaryVec.collect_timely room
  exact ⟨vec, family, later, ran, collected⟩

def half : Binary64 := ⟨0x3FE0000000000000⟩

/-- The median and one more quantile. -/
def halfAnd (q : Binary64) : Options :=
  { name := "w", help := "h", objectives := [(half, .zero), (q, .zero)]
    maxAge := ⟨20⟩, ageBuckets := 2 }

def halfAndForm (q : Binary64) (labels : List String) : Form :=
  { description := { name := "w", help := "h", labels }
    plan := { quantiles := ((halfAnd q).objectives.map (·.1)).mergeSort Binary64.atMost
              slice := ⟨10⟩, slices := 2, capacity := 512 } }

theorem halfAnd_form {q : Binary64} (within : q.inUnitInterval = true) {labels : List String}
    (clean : (halfAndForm q labels).description.fault? = none) :
    (halfAnd q).form labels = .ok (halfAndForm q labels) := by
  have half_within : half.inUnitInterval = true := by decide +kernel
  have inside : ((halfAnd q).objectives.map (·.1)).find? (fun q => !q.inUnitInterval) = none := by
    simp [halfAnd, half_within, within]
  have planned : (halfAnd q).plan = .ok (halfAndForm q labels).plan := by
    unfold Options.plan
    rw [if_neg (by simp [halfAnd])]
    dsimp only
    rw [inside]
    simp [halfAnd, halfAndForm]
  exact SummaryVec.form_of_clean planned clean

theorem one_within : Binary64.one.inUnitInterval = true := by decide +kernel

/-- A summary that stands alone, and two series of a family. -/
theorem lines_told_apart_by_quantile :
    (∃ journal family later, (halfAnd .one).form [] = .ok (halfAndForm .one []) ∧
      Journal.run (halfAndForm .one []) ⟨0⟩ [(⟨1⟩, .observe 7 .one)] = .ok journal ∧
      journal.summary.collect ⟨2⟩ = .ok (family, later) ∧
      ToldApart ((lines family).map Sample.identity)) ∧
    ∃ vec family later, (halfAnd .one).form ["b", "a"] = .ok (halfAndForm .one ["b", "a"]) ∧
      SummaryVec.run (halfAndForm .one ["b", "a"])
        [(⟨1⟩, .observe ["x", "y"] 7 .one), (⟨2⟩, .snapshot ["y", "x"])] = .ok vec ∧
      vec.collect ⟨3⟩ = .ok (family, later) ∧
      ToldApart ((lines family).map Sample.identity) := by
  have once : ((halfAnd .one).objectives.map (·.1)).Nodup := by decide
  constructor
  · have formed : (halfAnd .one).form [] = .ok (halfAndForm .one []) :=
      halfAnd_form one_within (by decide)
    have forward : Journal.Forward ⟨0⟩ [(⟨1⟩, .observe 7 .one)] ⟨2⟩ := by
      unfold Journal.Forward
      decide
    have room : (⟨2⟩ : Instant).nanos + (halfAndForm .one []).plan.slice.nanos < Instant.limit := by
      decide
    obtain ⟨journal, family, later, ran, collected⟩ := collects forward room
    have exposed := (lines_told_apart_iff formed).1 rfl _ _ journal _ family later ran collected
    exact ⟨journal, family, later, formed, ran, collected, exposed.told.mpr once⟩
  · have formed : (halfAnd .one).form ["b", "a"] = .ok (halfAndForm .one ["b", "a"]) :=
      halfAnd_form one_within (by decide)
    obtain ⟨vec, family, later, ran, collected⟩ : ∃ vec family later,
        SummaryVec.run (halfAndForm .one ["b", "a"])
          [(⟨1⟩, .observe ["x", "y"] 7 .one), (⟨2⟩, .snapshot ["y", "x"])] = .ok vec ∧
        vec.collect ⟨3⟩ = .ok (family, later) :=
      family_collects (by decide) (by decide)
    have exposed := (lines_told_apart_iff formed).2 _ vec _ family later ran collected
    exact ⟨vec, family, later, formed, ran, collected,
      exposed.told.mpr (.inr (.inr ⟨by decide, once⟩))⟩

/-- A quantile that is asked for twice is shown twice by the same name and labels, and a label that
is called like that of the quantiles is repeated in each of their lines. -/
theorem repeated_quantile_repeats_line :
    (∃ journal family later, (halfAnd half).form [] = .ok (halfAndForm half []) ∧
      Journal.run (halfAndForm half []) ⟨0⟩ [(⟨0⟩, .observe 7 ⟨0x4014000000000000⟩)] =
        .ok journal ∧
      journal.summary.collect ⟨0⟩ = .ok (family, later) ∧
      ((lines family).map Sample.identity).Perm
        [("w", [("quantile", half.text)]), ("w", [("quantile", half.text)]), ("w_sum", []),
          ("w_count", [])] ∧
      ¬ ToldApart ((lines family).map Sample.identity)) ∧
    ∃ vec family later, (halfAnd .one).form ["quantile"] = .ok (halfAndForm .one ["quantile"]) ∧
      SummaryVec.run (halfAndForm .one ["quantile"]) [(⟨0⟩, .snapshot ["x"])] = .ok vec ∧
      vec.collect ⟨0⟩ = .ok (family, later) ∧
      ("w", [("quantile", "x"), ("quantile", half.text)]) ∈ (lines family).map Sample.identity ∧
      ¬ ToldApart ((lines family).map Sample.identity) := by
  constructor
  · have formed : (halfAnd half).form [] = .ok (halfAndForm half []) :=
      halfAnd_form (by decide +kernel) (by decide)
    have forward : Journal.Forward ⟨0⟩ [(⟨0⟩, .observe 7 ⟨0x4014000000000000⟩)] ⟨0⟩ := by
      unfold Journal.Forward
      decide
    have room : (⟨0⟩ : Instant).nanos + (halfAndForm half []).plan.slice.nanos < Instant.limit := by
      decide
    obtain ⟨journal, family, later, ran, collected⟩ := collects forward room
    have form_eq := (Journal.run_complete ran).form_eq
    have sheet := collect_sheet (by rw [form_eq]; rfl) collected
    have sorted : (halfAndForm half []).plan.quantiles = [half, half] :=
      List.mergeSort_of_pairwise (by decide)
    rw [form_eq, sorted] at sheet
    have same : ((lines family).map Sample.identity).Perm
        [("w", [("quantile", half.text)]), ("w", [("quantile", half.text)]), ("w_sum", []),
          ("w_count", [])] := by
      have listed := sheet.identities
      simpa [Part.all, identity, Part.name, Part.labels, Description.named, halfAndForm] using listed
    refine ⟨journal, family, later, formed, ran, collected, same, ?_⟩
    intro told
    simpa using (told.perm same).nodup
  · have formed : (halfAnd .one).form ["quantile"] = .ok (halfAndForm .one ["quantile"]) :=
      halfAnd_form one_within (by decide)
    obtain ⟨vec, family, later, ran, collected⟩ : ∃ vec family later,
        SummaryVec.run (halfAndForm .one ["quantile"]) [(⟨0⟩, .snapshot ["x"])] = .ok vec ∧
        vec.collect ⟨0⟩ = .ok (family, later) :=
      family_collects (by decide) (by decide)
    have kept : SummaryVec.Kept (halfAndForm .one ["quantile"])
        (SummaryVec.unlabelled (halfAndForm .one ["quantile"])) _ vec := SummaryVec.run_kept rfl ran
    have there : ["x"] ∈ vec.windows.entries.map (·.1) := by
      rw [Labelled.mem_keys_iff]
      exact (kept.mem_iff ["x"]).mpr ⟨rfl, _, List.mem_singleton_self _, rfl⟩
    have asked : Part.quantile half ∈ Part.all (halfAndForm .one ["quantile"]).plan.quantiles := by
      simp [Part.all, halfAndForm, halfAnd]
    have shown : ("w", [("quantile", "x"), ("quantile", half.text)]) ∈
        (lines family).map Sample.identity := by
      apply (family_sheet kept collected).identities.mem_iff.mpr
      apply List.mem_map.mpr
      exact ⟨(["x"], .quantile half), List.mem_product.mpr ⟨there, asked⟩, by
        simp [identity, Part.name, Part.labels, Description.named, halfAndForm]⟩
    refine ⟨vec, family, later, formed, ran, collected, shown, ?_⟩
    intro told
    simpa using told.labels _ shown

end HedgedStore.Summary
