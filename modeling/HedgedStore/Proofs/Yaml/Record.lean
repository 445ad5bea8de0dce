import HedgedStore.Yaml.Reading
import HedgedStore.Proofs.Steps
import Mathlib.Data.List.Induction
import Mathlib.Logic.Function.Basic

/-! Reading a mapping into a record. What is read can be told without the order of the entries:
every field has the value that its one entry says, or none where there is no entry. -/
namespace HedgedStore.Yaml

namespace Node

def keyText? : Node → Option String
  | scalar _ s => some s.text
  | _ => none

/-- The node that a node of a document stands for. An alias that points nowhere stands for
itself. -/
def behind (root node : Node) : Node := (root.resolve node).getD node

/-- The step to a value from its key. -/
def step (key : Node) (name : String) : Step :=
  match key with
  | scalar _ _ => .field name
  | _ => .unnamed

/-- A mapping whose keys are scalars. -/
def HasScalarKeys : Node → Prop
  | mapping _ entries => ∀ entry ∈ entries, entry.1.keyText?.isSome
  | _ => False

instance : DecidablePred HasScalarKeys
  | mapping _ entries => inferInstanceAs (Decidable (∀ entry ∈ entries, entry.1.keyText?.isSome))
  | scalar _ _ | sequence _ _ | reference _ => isFalse id

/-- The values that a list of entries has for a key. -/
def valuesIn (entries : List (Node × Node)) (name : String) : List Node :=
  (entries.filter fun entry => entry.1.keyText? == some name).map Prod.snd

/-- The values that a mapping has for a key. -/
def valuesAt : Node → String → List Node
  | mapping _ entries, name => valuesIn entries name
  | _, _ => []

theorem keyText?_eq_some {node : Node} {name : String} :
    node.keyText? = some name ↔ ∃ slot s, node = scalar slot s ∧ s.text = name := by
  cases node <;> simp [keyText?]

@[simp]
theorem valuesAt_mapping (slot : Option Nat) (entries : List (Node × Node)) (name : String) :
    (mapping slot entries).valuesAt name = valuesIn entries name := rfl

@[simp]
theorem valuesIn_nil (name : String) : valuesIn [] name = [] := rfl

theorem valuesIn_append (entries others : List (Node × Node)) (name : String) :
    valuesIn (entries ++ others) name = valuesIn entries name ++ valuesIn others name := by
  simp [valuesIn]

theorem valuesIn_singleton (key value : Node) (name : String) :
    valuesIn [(key, value)] name = if key.keyText? = some name then [value] else [] := by
  by_cases named : key.keyText? = some name <;> simp [valuesIn, named]

theorem valuesIn_insert (before behind : List (Node × Node)) (key value : Node) (name : String) :
    valuesIn (before ++ (key, value) :: behind) name =
      valuesIn before name ++ ((if key.keyText? = some name then [value] else []) ++
        valuesIn behind name) := by
  rw [← List.singleton_append, valuesIn_append, valuesIn_append, valuesIn_singleton]

end Node

/-- A field of a record after its values were read: the one value that there is. -/
inductive Slot {α : Type} (Reads : Node → α → Prop) : List Node → Option α → Prop where
  | absent : Slot Reads [] none
  | given {node : Node} {a : α} (reads : Reads node a) : Slot Reads [node] (some a)

/-- How the functions that read a record go together: a record is a value or none for each field,
and to read a field puts its value there. -/
structure Layout {φ ρ : Type} [DecidableEq φ] (fieldOf : String → Option φ) (has : ρ → φ → Bool)
    (read : ρ → φ → Place → Except Mismatch ρ) where
  name : φ → String
  Value : φ → Type
  get : ρ → (field : φ) → Option (Value field)
  ofValues : ((field : φ) → Option (Value field)) → ρ
  value : (field : φ) → Place → Except Mismatch (Value field)
  fieldOf_eq_some : ∀ s field, fieldOf s = some field ↔ name field = s
  ofValues_get : ∀ record, ofValues (get record) = record
  get_ofValues : ∀ values field, get (ofValues values) field = values field
  has_eq : ∀ record field, has record field = (get record field).isSome
  read_eq : ∀ record field p, read record field p =
    (value field p).map fun v => ofValues (Function.update (get record) field (some v))

namespace Layout

variable {φ ρ : Type} [DecidableEq φ] {fieldOf : String → Option φ} {has : ρ → φ → Bool}
  {read : ρ → φ → Place → Except Mismatch ρ} (layout : Layout fieldOf has read)

/-- All fields hold what the values of their entries say. -/
def Holds (Reads : (field : φ) → Node → layout.Value field → Prop) (entries : List (Node × Node))
    (record : ρ) : Prop :=
  ∀ field, Slot (Reads field) (Node.valuesIn entries (layout.name field)) (layout.get record field)

variable {layout} {Reads : (field : φ) → Node → layout.Value field → Prop}

theorem name_injective {field other : φ} (same : layout.name field = layout.name other) :
    field = other := by
  have found := (layout.fieldOf_eq_some _ field).mpr same
  rw [(layout.fieldOf_eq_some _ other).mpr rfl] at found
  exact (Option.some.inj found).symm

variable (layout) in
theorem eq_of_get {record other : ρ}
    (same : ∀ field, layout.get record field = layout.get other field) : record = other := by
  rw [← layout.ofValues_get record, ← layout.ofValues_get other, funext same]

theorem holds_nil {record : ρ} :
    layout.Holds Reads [] record ↔ record = layout.ofValues fun _ => none := by
  constructor
  · intro holds
    refine layout.eq_of_get fun field => ?_
    have slot := holds field
    rw [Node.valuesIn_nil] at slot
    rw [layout.get_ofValues]
    generalize layout.get record field = held at slot
    cases slot
    rfl
  · rintro rfl field
    rw [Node.valuesIn_nil, layout.get_ofValues]
    exact .absent

/-- An entry that is no field's changes nothing. -/
theorem holds_unknown {entries : List (Node × Node)} {key value : Node} {name : String} {record : ρ}
    (named : key.keyText? = some name) (unknown : fieldOf name = none) :
    layout.Holds Reads (entries ++ [(key, value)]) record ↔ layout.Holds Reads entries record := by
  refine forall_congr' fun field => ?_
  have other : key.keyText? ≠ some (layout.name field) := by
    rw [named]
    rintro ⟨⟩
    rw [(layout.fieldOf_eq_some _ field).mpr rfl] at unknown
    cases unknown
  rw [Node.valuesIn_append, Node.valuesIn_singleton, if_neg other, List.append_nil]

/-- The entry of a field is its only one, and puts its value there. -/
theorem holds_field {entries : List (Node × Node)} {key value : Node} {field : φ} {record : ρ}
    (named : key.keyText? = some (layout.name field)) :
    layout.Holds Reads (entries ++ [(key, value)]) record ↔
      ∃ before, layout.Holds Reads entries before ∧ layout.get before field = none ∧
        ∃ v, Reads field value v ∧
          record = layout.ofValues (Function.update (layout.get before) field (some v)) := by
  have own : Node.valuesIn (entries ++ [(key, value)]) (layout.name field) =
      Node.valuesIn entries (layout.name field) ++ [value] := by
    rw [Node.valuesIn_append, Node.valuesIn_singleton, if_pos named]
  have others {other : φ} (apart : other ≠ field) :
      Node.valuesIn (entries ++ [(key, value)]) (layout.name other) =
        Node.valuesIn entries (layout.name other) := by
    have : key.keyText? ≠ some (layout.name other) := by
      rw [named]
      exact fun same => apart (name_injective (Option.some.inj same)).symm
    rw [Node.valuesIn_append, Node.valuesIn_singleton, if_neg this, List.append_nil]
  constructor
  · -- the record before is this one without the value of the field
    intro holds
    have slot := holds field
    rw [own] at slot
    cases held : layout.get record field with
    | none =>
      rw [held] at slot
      generalize values : Node.valuesIn entries (layout.name field) ++ [value] = all at slot
      cases slot
      simp at values
    | some v =>
      rw [held] at slot
      generalize values : Node.valuesIn entries (layout.name field) ++ [value] = all at slot
      obtain _ | reads := slot
      obtain ⟨none_before, rfl⟩ : Node.valuesIn entries (layout.name field) = [] ∧ value = _ := by
        simpa [List.append_eq_singleton_iff] using values
      refine ⟨layout.ofValues (Function.update (layout.get record) field none), fun other => ?_, ?_,
        v, reads, layout.eq_of_get fun other => ?_⟩
      · by_cases same : other = field
        · subst same
          rw [none_before, layout.get_ofValues, Function.update_self]
          exact .absent
        · rw [layout.get_ofValues, Function.update_of_ne same, ← others same]
          exact holds other
      · rw [layout.get_ofValues, Function.update_self]
      · by_cases same : other = field
        · subst same
          rw [layout.get_ofValues, Function.update_self, held]
        · rw [layout.get_ofValues, Function.update_of_ne same, layout.get_ofValues,
            Function.update_of_ne same]
  · rintro ⟨before, holds, free, v, reads, rfl⟩ other
    rw [layout.get_ofValues]
    by_cases same : other = field
    · subst same
      have slot := holds other
      rw [free] at slot
      generalize Node.valuesIn entries (layout.name other) = values at slot own
      cases slot
      rw [own, Function.update_self]
      exact .given reads
    · rw [others same, Function.update_of_ne same]
      exact holds other

/-- An entry is read if the name of no field stands behind its key, or that of a free one. -/
theorem readEntry_eq_ok (layout : Layout fieldOf has read) {p : Place} {key value : Node}
    {name : String} (named : (p.root.behind key).keyText? = some name) {record next : ρ} :
    p.readEntry fieldOf has read record (key, value) = .ok next ↔
      match fieldOf name with
      | none => record = next
      | some field => layout.get record field = none ∧
        ∃ v, layout.value field ⟨p.root, p.path ++ [key.step name], value⟩ = .ok v ∧
          layout.ofValues (Function.update (layout.get record) field (some v)) = next := by
  obtain ⟨slot, s, behind, rfl⟩ := Node.keyText?_eq_some.mp named
  have target : ({ p with node := key } : Place).target = .scalar slot s := behind
  unfold Place.readEntry
  simp only [target, pure_eq_ok, ok_bind]
  cases fieldOf s.text with
  | none => exact ⟨Except.ok.inj, congrArg _⟩
  | some field =>
    simp only [layout.has_eq, layout.read_eq]
    cases held : layout.get record field with
    | none =>
      simp only [Option.isSome_none, Bool.false_eq_true, if_false, map_eq_ok, true_and]
      rfl
    | some v => exact iff_of_false nofun nofun

/-- All entries read one after another: every field holds what its entries say. -/
theorem foldlM_readEntry_eq_ok {p : Place} {blank : ρ}
    (empty : ∀ field, layout.get blank field = none) {entries : List (Node × Node)}
    (keys : ∀ entry ∈ entries, entry.1.keyText?.isSome)
    (reads : ∀ field, ∀ node ∈ Node.valuesIn entries (layout.name field), ∀ path v,
      layout.value field ⟨p.root, path, node⟩ = .ok v ↔ Reads field node v) {record : ρ} :
    entries.foldlM (p.readEntry fieldOf has read) blank = .ok record ↔
      layout.Holds Reads entries record := by
  -- before the last entry the record holds what the others say
  induction entries using List.reverseRecOn generalizing record with
  | nil =>
    have blank_eq : blank = layout.ofValues fun _ => none :=
      layout.eq_of_get fun field => by rw [empty, layout.get_ofValues]
    rw [holds_nil, ← blank_eq]
    exact ⟨fun done => (Except.ok.inj done).symm, fun same => congrArg _ same.symm⟩
  | append_singleton entries entry ih =>
    obtain ⟨key, value⟩ := entry
    obtain ⟨name, named⟩ := Option.isSome_iff_exists.mp
      (keys (key, value) (List.mem_append_right _ List.mem_cons_self))
    have behind : (p.root.behind key).keyText? = some name := by
      obtain ⟨slot, s, rfl, -⟩ := Node.keyText?_eq_some.mp named
      exact named
    have before (record : ρ) := @ih (fun entry member => keys entry (List.mem_append_left _ member))
      (fun field node member => reads field node (by
        rw [Node.valuesIn_append]
        exact List.mem_append_left _ member)) record
    simp only [List.foldlM_append, List.foldlM_cons, List.foldlM_nil, bind_pure, bind_eq_ok, before,
      layout.readEntry_eq_ok behind]
    cases known : fieldOf name with
    | none => simp [holds_unknown named known]
    | some field =>
      obtain rfl := (layout.fieldOf_eq_some name field).mp known
      have own : value ∈ Node.valuesIn (entries ++ [(key, value)]) (layout.name field) := by
        simp [Node.valuesIn_append, Node.valuesIn_singleton, named]
      simp only [holds_field named, reads field value own, eq_comm (a := record)]

/-- A mapping is read in whatever order its entries stand. -/
theorem readRecord_eq_ok (layout : Layout fieldOf has read)
    (Reads : (field : φ) → Node → layout.Value field → Prop) {p : Place} {blank record : ρ}
    {recordName : String} (empty : ∀ field, layout.get blank field = none)
    (mapping : p.node.HasScalarKeys)
    (reads : ∀ field, ∀ node ∈ p.node.valuesAt (layout.name field), ∀ path v,
      layout.value field ⟨p.root, path, node⟩ = .ok v ↔ Reads field node v) :
    p.readRecord recordName fieldOf has read blank = .ok record ↔
      ∀ field,
        Slot (Reads field) (p.node.valuesAt (layout.name field)) (layout.get record field) := by
  obtain ⟨root, path, node⟩ := p
  cases node with
  | mapping slot entries => exact foldlM_readEntry_eq_ok empty mapping reads
  | _ => cases mapping

end Layout

/-! The value of one field. -/

section Field

variable {α : Type} (Reads : Node → α → Prop)

/-- What a field has that must be there: what its one entry says. -/
def Required (nodes : List Node) (a : α) : Prop := ∃ node, nodes = [node] ∧ Reads node a

/-- What a field has that may be left out: what its one entry says, or else its default. -/
def Optional (default : α) (nodes : List Node) (a : α) : Prop :=
  nodes = [] ∧ a = default ∨ Required Reads nodes a

variable {Reads}

theorem slot_some {nodes : List Node} {a : α} :
    Slot Reads nodes (some a) ↔ Required Reads nodes a := by
  constructor
  · rintro (_ | reads)
    exact ⟨_, rfl, reads⟩
  · rintro ⟨node, rfl, reads⟩
    exact .given reads

theorem slot_none {nodes : List Node} : Slot Reads nodes none ↔ nodes = [] := by
  constructor
  · rintro ⟨⟩
    rfl
  · rintro rfl
    exact .absent

theorem Slot.optional {nodes : List Node} {held : Option α} (slot : Slot Reads nodes held)
    (default : α) : Optional Reads default nodes (held.getD default) := by
  cases held with
  | none => exact .inl ⟨slot_none.mp slot, rfl⟩
  | some a => exact .inr (slot_some.mp slot)

theorem Optional.slot {default a : α} {nodes : List Node}
    (optional : Optional Reads default nodes a) :
    ∃ held, Slot Reads nodes held ∧ held.getD default = a := by
  obtain ⟨absent, rfl⟩ | required := optional
  · exact ⟨none, slot_none.mpr absent, rfl⟩
  · exact ⟨some a, slot_some.mpr required, rfl⟩

end Field

/-! Changes to a mapping. -/

/-- Two lists of values: the same in another order, or with one value changed. -/
inductive Differ (Changes : Node → Node → Prop) : List Node → List Node → Prop where
  | order {nodes others : List Node} (perm : nodes.Perm others) : Differ Changes nodes others
  | value {node other : Node} (changes : Changes node other) (before behind : List Node) :
    Differ Changes (before ++ node :: behind) (before ++ other :: behind)

/-- A change to a mapping: its entries in another order, an entry of a key that is not known, or a
change within the value of a key. -/
inductive Edit (known : List String) (Changes : String → Node → Node → Prop) :
    Node → Node → Prop where
  | reorder {slot : Option Nat} {entries others : List (Node × Node)} (perm : entries.Perm others) :
    Edit known Changes (.mapping slot entries) (.mapping slot others)
  | insert {slot : Option Nat} {key : Node} {name : String} (named : key.keyText? = some name)
    (unknown : name ∉ known) (value : Node) (before behind : List (Node × Node)) :
    Edit known Changes (.mapping slot (before ++ behind))
      (.mapping slot (before ++ (key, value) :: behind))
  | within {slot : Option Nat} {key value other : Node} {name : String}
    (named : key.keyText? = some name) (changes : Changes name value other)
    (before behind : List (Node × Node)) :
    Edit known Changes (.mapping slot (before ++ (key, value) :: behind))
      (.mapping slot (before ++ (key, other) :: behind))

namespace Differ

variable {α : Type} {Changes : Node → Node → Prop} {nodes others : List Node}

theorem nil_iff (differ : Differ Changes nodes others) : nodes = [] ↔ others = [] := by
  cases differ with
  | order perm => rw [← List.length_eq_zero_iff, perm.length_eq, List.length_eq_zero_iff]
  | value => simp

theorem required_iff {Reads : Node → α → Prop} (differ : Differ Changes nodes others)
    {a : α} (same : ∀ node other, Changes node other → (Reads node a ↔ Reads other a)) :
    Required Reads nodes a ↔ Required Reads others a := by
  cases differ with
  | order perm =>
    refine exists_congr fun node => and_congr_left' ?_
    rw [← List.perm_singleton, ← List.perm_singleton, perm.congr_left]
  | @value node other changes before behind =>
    have single (n : Node) : Required Reads (before ++ n :: behind) a ↔
        before = [] ∧ behind = [] ∧ Reads n a := by
      simp [Required, List.append_eq_singleton_iff, and_assoc]
    rw [single, single, same node other changes]

theorem optional_iff {Reads : Node → α → Prop} (differ : Differ Changes nodes others)
    {default a : α} (same : ∀ node other, Changes node other → (Reads node a ↔ Reads other a)) :
    Optional Reads default nodes a ↔ Optional Reads default others a :=
  or_congr (and_congr_left' differ.nil_iff) (differ.required_iff same)

theorem keeps {P : Node → Prop} (differ : Differ Changes nodes others)
    (keeps : ∀ node other, Changes node other → P node → P other) (all : ∀ node ∈ nodes, P node) :
    ∀ node ∈ others, P node := by
  cases differ with
  | order perm => exact fun node member => all node (perm.mem_iff.mpr member)
  | @value node other changes before behind =>
    simp only [List.forall_mem_append, List.forall_mem_cons] at all ⊢
    exact ⟨all.1, keeps node other changes all.2.1, all.2.2⟩

end Differ

namespace Edit

variable {known : List String} {Changes : String → Node → Node → Prop} {node other : Node}

theorem hasScalarKeys (edit : Edit known Changes node other) (keys : node.HasScalarKeys) :
    other.HasScalarKeys := by
  cases edit with
  | reorder perm => exact fun entry member => keys entry (perm.mem_iff.mpr member)
  | insert named _ value before behind =>
    simp only [Node.HasScalarKeys, List.forall_mem_append, List.forall_mem_cons] at keys ⊢
    exact ⟨keys.1, by rw [named]; rfl, keys.2⟩
  | within named changes before behind =>
    simp only [Node.HasScalarKeys, List.forall_mem_append, List.forall_mem_cons] at keys ⊢
    exact keys

/-- The values of a key that is known change only as far as they are changed themselves. -/
theorem valuesAt (edit : Edit known Changes node other) {name : String} (asked : name ∈ known) :
    Differ (Changes name) (node.valuesAt name) (other.valuesAt name) := by
  cases edit with
  | reorder perm => exact .order ((perm.filter _).map _)
  | @insert slot key inserted named unknown value before behind =>
    have apart : key.keyText? ≠ some name := by
      rw [named]
      rintro ⟨⟩
      exact unknown asked
    rw [Node.valuesAt_mapping, Node.valuesAt_mapping, Node.valuesIn_insert, if_neg apart,
      Node.valuesIn_append, List.nil_append]
    exact .order (.refl _)
  | @within slot key value other changed named changes before behind =>
    simp only [Node.valuesAt_mapping, Node.valuesIn_insert, named]
    by_cases same : changed = name
    · subst same
      simpa using Differ.value changes _ _
    · simpa [same] using Differ.order (.refl _)

end Edit

end HedgedStore.Yaml
