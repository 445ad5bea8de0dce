import HedgedStore.Metrics.Description
import HedgedStore.Metrics.Exposition
import Mathlib

/-! The lines of a text in which metrics are handed over. A line shows whose number it is: from what
stands in front of the value, the name and the labels are read back. -/
namespace HedgedStore.Exposition

/-- All the numbers of a family, in the order in which they are written. -/
def lines (family : Family) : List Sample :=
  (inOrder family.series).flatMap (samples family.name)

/-- The two lines above the numbers. -/
def heading (family : Family) : String :=
  "# HELP " ++ family.name ++ " " ++ escapeHelp family.help ++ "\n" ++
  "# TYPE " ++ family.name ++ " " ++ family.kind.name ++ "\n"

theorem text_eq (family : Family) : text [family] =
    if family.series = [] then ""
    else heading family ++ String.join ((lines family).map Sample.line) := by
  unfold text
  by_cases empty : family.series = []
  · simp [empty]
  · have shown : [family].filter (fun family => !family.series.isEmpty) = [family] := by
      simp [empty]
    rw [shown, if_neg empty]
    dsimp only
    rw [List.mergeSort_singleton, List.map_cons, List.map_nil, String.join_cons, String.join_nil,
      String.append_empty, lines, List.map_flatMap]
    rfl

/-- What stands in front of the value. -/
def Sample.head (sample : Sample) : String := sample.name ++ labelText sample.labels

/-! Values between quotation marks. -/

def code (c : Char) : List Char :=
  if c = '\\' then ['\\', '\\'] else if c = '\n' then ['\\', 'n'] else if c = '"' then ['\\', '"']
  else [c]

theorem toList_escapeValue (s : String) : (escapeValue s).toList = s.toList.flatMap code := by
  unfold escapeValue
  rw [String.toList_join, List.flatMap_map]
  congr 1
  funext c
  simp only [beq_iff_eq]
  unfold code
  split_ifs
  · rfl
  · rfl
  · rfl
  · exact String.toList_singleton c

theorem code_inj {c c' : Char} {rest rest' : List Char}
    (same : code c ++ rest = code c' ++ rest') : c = c' ∧ rest = rest' := by
  unfold code at same
  split_ifs at same <;> grind

theorem quote_ne_code (c : Char) (rest rest' : List Char) : '"' :: rest ≠ code c ++ rest' := by
  unfold code
  split_ifs with backslash newline quote
  · simp
  · simp
  · simp
  · simpa using fun same => absurd same.symm quote

theorem quoted_inj {value value' rest rest' : List Char}
    (same : value.flatMap code ++ '"' :: rest = value'.flatMap code ++ '"' :: rest') :
    value = value' ∧ rest = rest' := by
  induction value generalizing value' with
  | nil =>
    cases value' with
    | nil => simpa using same
    | cons c' value' =>
      rw [List.flatMap_cons, List.append_assoc] at same
      exact absurd same (quote_ne_code c' _ _)
  | cons c value ih =>
    cases value' with
    | nil =>
      rw [List.flatMap_cons, List.append_assoc] at same
      exact absurd same.symm (quote_ne_code c _ _)
    | cons c' value' =>
      rw [List.flatMap_cons, List.flatMap_cons, List.append_assoc, List.append_assoc] at same
      obtain ⟨first, others⟩ := code_inj same
      obtain ⟨later, ends⟩ := ih others
      exact ⟨by rw [first, later], ends⟩

/-! Names. -/

/-- A character of a name. -/
def inName (c : Char) : Bool := Description.startsMetricName c || c.isDigit

/-- A name ends where something comes that cannot be in it. -/
theorem name_inj {name name' rest rest' : List Char} (named : ∀ c ∈ name, inName c = true)
    (named' : ∀ c ∈ name', inName c = true) (ends : rest.takeWhile inName = [])
    (ends' : rest'.takeWhile inName = []) (same : name ++ rest = name' ++ rest') :
    name = name' ∧ rest = rest' := by
  have read := congrArg (List.takeWhile inName) same
  rw [List.takeWhile_append_of_pos named, List.takeWhile_append_of_pos named', ends, ends',
    List.append_nil, List.append_nil] at read
  subst read
  exact ⟨rfl, List.append_cancel_left same⟩

theorem inName_of_isName {starts : Char → Bool} {s : String}
    (within : ∀ c, starts c = true → Description.startsMetricName c = true)
    (valid : Description.isName starts s = true) : ∀ c ∈ s.toList, inName c = true := by
  unfold Description.isName at valid
  split at valid
  · rename_i first rest chars
    rw [Bool.and_eq_true, List.all_eq_true] at valid
    intro c mem
    rw [chars] at mem
    unfold inName
    rcases List.mem_cons.mp mem with rfl | later
    · rw [within _ valid.1, Bool.true_or]
    · have either := valid.2 c later
      rw [Bool.or_eq_true] at either ⊢
      exact either.imp_left (within c)
  · cases valid

/-! Labels between braces. -/

/-- Labels up to the brace that closes them. -/
def closed : List (String × String) → List Char
  | [] => ['}']
  | (name, value) :: rest =>
    name.toList ++ '=' :: '"' :: (value.toList.flatMap code ++ '"' ::
      if rest = [] then closed rest else ',' :: closed rest)

def labelEntry (label : String × String) : String :=
  label.1 ++ "=\"" ++ escapeValue label.2 ++ "\""

theorem toList_labelEntry (label : String × String) : (labelEntry label).toList =
    label.1.toList ++ '=' :: '"' :: (label.2.toList.flatMap code ++ ['"']) := by
  simp [labelEntry, toList_escapeValue]

theorem closed_intercalate (first : String × String) (rest : List (String × String)) :
    (",".intercalate ((first :: rest).map labelEntry) ++ "\x7d").toList =
      closed (first :: rest) := by
  induction rest generalizing first with
  | nil => simp [closed, toList_labelEntry]
  | cons second rest ih =>
    have later := ih second
    have whole : closed (first :: second :: rest) =
        (labelEntry first).toList ++ ',' :: closed (second :: rest) := by
      rw [closed, if_neg (List.cons_ne_nil second rest), toList_labelEntry]
      simp
    rw [List.map_cons] at later ⊢
    rw [List.map_cons, String.intercalate_cons_cons, String.append_assoc, String.toList_append,
      later, String.toList_append, whole, List.append_assoc]
    rfl

theorem toList_labelText (labels : List (String × String)) :
    (labelText labels).toList = if labels = [] then [] else '\x7b' :: closed labels := by
  cases labels with
  | nil => rfl
  | cons first rest =>
    rw [if_neg (List.cons_ne_nil first rest), ← closed_intercalate]
    change ("\x7b" ++ ",".intercalate ((first :: rest).map labelEntry) ++ "\x7d").toList = _
    simp

def Named (labels : List (String × String)) : Prop :=
  ∀ label ∈ labels, ∀ c ∈ label.1.toList, inName c = true

theorem closed_ne_brace {label : String × String} {rest : List (String × String)}
    (named : Named (label :: rest)) : closed (label :: rest) ≠ closed [] := by
  obtain ⟨name, value⟩ := label
  intro same
  have chars := named (name, value) List.mem_cons_self
  simp only [closed] at same
  cases chars_eq : name.toList with
  | nil => simp [chars_eq] at same
  | cons c cs =>
    rw [chars_eq] at same chars
    obtain ⟨rfl, -⟩ := List.cons_eq_cons.mp same
    have brace := chars _ List.mem_cons_self
    cases brace

theorem closed_inj {labels labels' : List (String × String)} (named : Named labels)
    (named' : Named labels') (same : closed labels = closed labels') : labels = labels' := by
  induction labels generalizing labels' with
  | nil =>
    cases labels' with
    | nil => rfl
    | cons label' rest' => exact absurd same.symm (closed_ne_brace named')
  | cons label rest ih =>
    cases labels' with
    | nil => exact absurd same (closed_ne_brace named)
    | cons label' rest' =>
      obtain ⟨name, value⟩ := label
      obtain ⟨name', value'⟩ := label'
      unfold closed at same
      obtain ⟨names, behind⟩ := name_inj (named _ List.mem_cons_self) (named' _ List.mem_cons_self)
        (List.takeWhile_cons_of_neg (by decide)) (List.takeWhile_cons_of_neg (by decide)) same
      obtain ⟨values, further⟩ := quoted_inj (by simpa using behind)
      have closes : closed rest = closed rest' := by
        split at further <;> split at further
        · exact further
        · rename_i last _
          rw [last] at further
          exact absurd (List.cons_eq_cons.mp further).1 (by decide)
        · rename_i _ last
          rw [last] at further
          exact absurd (List.cons_eq_cons.mp further).1 (by decide)
        · exact (List.cons_eq_cons.mp further).2
      have later := ih (fun other mem => named other (List.mem_cons_of_mem _ mem))
        (fun other mem => named' other (List.mem_cons_of_mem _ mem)) closes
      have keys : name = name' := String.toList_inj.mp names
      rw [keys, String.toList_inj.mp values, later]

theorem takeWhile_labelText (labels : List (String × String)) :
    (labelText labels).toList.takeWhile inName = [] := by
  rw [toList_labelText]
  split
  · rfl
  · exact List.takeWhile_cons_of_neg (by decide)

/-- A line tells its name and its labels. -/
theorem head_inj {a b : Sample} (named : ∀ c ∈ a.name.toList, inName c = true)
    (named' : ∀ c ∈ b.name.toList, inName c = true) (labels : Named a.labels)
    (labels' : Named b.labels) (same : a.head = b.head) :
    a.name = b.name ∧ a.labels = b.labels := by
  have chars := congrArg String.toList same
  unfold Sample.head at chars
  rw [String.toList_append, String.toList_append] at chars
  obtain ⟨names, braces⟩ := name_inj named named' (takeWhile_labelText _) (takeWhile_labelText _)
    chars
  refine ⟨String.toList_inj.mp names, ?_⟩
  rw [toList_labelText, toList_labelText] at braces
  split at braces <;> split at braces
  · rename_i none none'
    rw [none, none']
  · cases braces
  · cases braces
  · exact closed_inj labels labels' (List.cons_eq_cons.mp braces).2

/-! What a line is about. -/

/-- Whose number it is. -/
def Sample.identity (sample : Sample) : String × List (String × String) :=
  (sample.name, sample.labels)

/-- No label is repeated, and no two have the same name and the same set of labels. -/
structure ToldApart (identities : List (String × List (String × String))) : Prop where
  labels : ∀ identity ∈ identities, (identity.2.map (·.1)).Nodup
  apart : identities.Pairwise fun a b => a.1 = b.1 → ¬ ∀ label, label ∈ a.2 ↔ label ∈ b.2

theorem ToldApart.perm {identities identities' : List (String × List (String × String))}
    (same : identities.Perm identities') (told : ToldApart identities) : ToldApart identities' := by
  constructor
  · exact fun identity mem => told.labels identity (same.mem_iff.mpr mem)
  · refine (same.pairwise_iff ?_).mp told.apart
    exact fun differ names labels => differ names.symm fun label => (labels label).symm

theorem ToldApart.nodup {identities : List (String × List (String × String))}
    (told : ToldApart identities) : identities.Nodup := by
  apply told.apart.imp
  rintro a b differ rfl
  exact differ rfl fun label => Iff.rfl

end HedgedStore.Exposition
