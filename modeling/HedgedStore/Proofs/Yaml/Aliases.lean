import HedgedStore.Proofs.Yaml.Record

/-! Reading a mapping in a document with aliases. A record that was read holds what the entries say
once the aliases among their keys and values are followed. -/
namespace HedgedStore.Yaml

namespace Node

variable (root : Node)

/-- The node behind a node, with the nodes behind its keys and values if it is a mapping. -/
def followed (node : Node) : Node :=
  match root.behind node with
  | mapping slot entries =>
    mapping slot (entries.map fun entry => (root.behind entry.1, root.behind entry.2))
  | other => other

/-- The nodes that a document gives at a path of keys. -/
def found (path : List String) : List Node :=
  path.foldl (fun nodes name => nodes.flatMap fun node => (root.followed node).valuesAt name) [root]

variable {root} {node : Node}

theorem followed_of_mapping {slot : Option Nat} {entries : List (Node × Node)}
    (mapped : root.behind node = mapping slot entries) :
    root.followed node =
      mapping slot (entries.map fun entry => (root.behind entry.1, root.behind entry.2)) := by
  rw [followed, mapped]

/-- What an alias points to is no alias. -/
@[simp]
theorem behind_behind : root.behind (root.behind node) = root.behind node := by
  cases node with
  | reference slot =>
    simp only [behind, resolve]
    cases held : root.atSlot? slot with
    | none => simp only [Option.getD_none, held]
    | some target =>
      have placed : target.slot = some slot := by simpa using List.find?_some held
      cases target with
      | reference _ => cases placed
      | _ => rfl
  | _ => rfl

@[simp]
theorem followed_behind : root.followed (root.behind node) = root.followed node := by
  simp only [followed, behind_behind]

theorem found_singleton (name : String) : root.found [name] = (root.followed root).valuesAt name := by
  simp [found]

theorem found_pair (outer inner : String) :
    root.found [outer, inner] =
      (root.found [outer]).flatMap fun node => (root.followed node).valuesAt inner := by
  simp [found]

end Node

/-- An entry that was read has a text behind its key. -/
theorem Place.named_of_readEntry {φ ρ : Type} {fieldOf : String → Option φ} {has : ρ → φ → Bool}
    {read : ρ → φ → Place → Except Mismatch ρ} {p : Place} {key value : Node} {record next : ρ}
    (done : p.readEntry fieldOf has read record (key, value) = .ok next) :
    ∃ name, (p.root.behind key).keyText? = some name := by
  have target : ({ p with node := key } : Place).target = p.root.behind key := rfl
  unfold Place.readEntry at done
  rw [target] at done
  cases behind : p.root.behind key with
  | scalar slot s => exact ⟨s.text, rfl⟩
  | _ =>
    rw [behind] at done
    cases done

namespace Layout

variable {φ ρ : Type} [DecidableEq φ] {fieldOf : String → Option φ} {has : ρ → φ → Bool}
  {read : ρ → φ → Place → Except Mismatch ρ} {layout : Layout fieldOf has read}
  {Reads : (field : φ) → Node → layout.Value field → Prop} {p : Place} {blank record : ρ}

theorem holds_of_foldlM (empty : ∀ field, layout.get blank field = none)
    (reads : ∀ field path node v, layout.value field ⟨p.root, path, node⟩ = .ok v →
      Reads field (p.root.behind node) v) {entries : List (Node × Node)}
    (done : entries.foldlM (p.readEntry fieldOf has read) blank = .ok record) :
    layout.Holds Reads
      (entries.map fun entry => (p.root.behind entry.1, p.root.behind entry.2)) record := by
  -- before the last entry the record holds what the others say
  induction entries using List.reverseRecOn generalizing record with
  | nil =>
    obtain rfl := Except.ok.inj done
    exact fun field => (empty field).symm ▸ .absent
  | append_singleton entries entry ih =>
    obtain ⟨key, value⟩ := entry
    simp only [List.foldlM_append, List.foldlM_cons, List.foldlM_nil, bind_pure] at done
    obtain ⟨before, earlier, last⟩ := bind_eq_ok.mp done
    have holds := ih earlier
    obtain ⟨name, named⟩ := Place.named_of_readEntry last
    have stepped := (layout.readEntry_eq_ok named).mp last
    rw [List.map_append, List.map_singleton]
    cases known : fieldOf name with
    | none =>
      simp only [known] at stepped
      subst stepped
      exact (holds_unknown named known).mpr holds
    | some field =>
      simp only [known] at stepped
      obtain ⟨free, v, valued, rfl⟩ := stepped
      obtain rfl := (layout.fieldOf_eq_some name field).mp known
      exact (holds_field named).mpr ⟨before, holds, free, v, reads field _ value v valued, rfl⟩

/-- A record that was read has in every field what the document says there behind its aliases. -/
theorem slot_of_readRecord (layout : Layout fieldOf has read)
    (Reads : (field : φ) → Node → layout.Value field → Prop)
    {recordName : String} (empty : ∀ field, layout.get blank field = none)
    (reads : ∀ field path node v, layout.value field ⟨p.root, path, node⟩ = .ok v →
      Reads field (p.root.behind node) v)
    (done : p.readRecord recordName fieldOf has read blank = .ok record) (field : φ) :
    Slot (Reads field) ((p.root.followed p.node).valuesAt (layout.name field))
      (layout.get record field) := by
  obtain ⟨entries, listed, done⟩ := bind_eq_ok.mp done
  have target : p.target = p.root.behind p.node := rfl
  unfold Place.entries at listed
  rw [target] at listed
  cases behind : p.root.behind p.node with
  | mapping slot all =>
    rw [behind] at listed
    obtain rfl := Except.ok.inj listed
    rw [Node.followed_of_mapping behind]
    exact holds_of_foldlM empty reads done field
  | scalar slot s =>
    simp only [behind] at listed
    split at listed
    · -- nothing is written there, which is a mapping without entries
      obtain rfl := Except.ok.inj listed
      obtain rfl := Except.ok.inj done
      simp only [Node.followed, behind]
      exact (empty field).symm ▸ .absent
    · cases listed
  | _ =>
    rw [behind] at listed
    cases listed

end Layout

end HedgedStore.Yaml
