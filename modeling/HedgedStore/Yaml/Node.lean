import HedgedStore.Yaml.Token

/-! The nodes of a YAML document. A named node has a slot, and an alias points to a slot. Slots
are counted by the names in use so far: a name that is bound again gets the slot that the next
new name will get as well, and then the node that starts later keeps it. -/
namespace HedgedStore.Yaml

structure Scalar where
  text : String
  style : Style
  tag : Option String
deriving DecidableEq, Repr

def Scalar.empty : Scalar := ⟨"", .plain, none⟩

inductive Node where
  | scalar (slot : Option Nat) (value : Scalar)
  | sequence (slot : Option Nat) (items : List Node)
  | mapping (slot : Option Nat) (entries : List (Node × Node))
  | reference (slot : Nat)

namespace Node

def slot : Node → Option Nat
  | scalar slot _ | sequence slot _ | mapping slot _ => slot
  | reference _ => none

mutual

/-- A node and all nodes below it, in the order in which they start. -/
def subnodes : Node → List Node
  | scalar slot value => [scalar slot value]
  | sequence slot items => sequence slot items :: itemNodes items
  | mapping slot entries => mapping slot entries :: entryNodes entries
  | reference slot => [reference slot]

def itemNodes : List Node → List Node
  | [] => []
  | item :: items => subnodes item ++ itemNodes items

def entryNodes : List (Node × Node) → List Node
  | [] => []
  | (key, value) :: entries => subnodes key ++ subnodes value ++ entryNodes entries

end

/-! Whether two nodes are the same can be computed. -/

mutual

def same : Node → Node → Bool
  | scalar slot s, scalar slot' s' => slot == slot' && s == s'
  | sequence slot items, sequence slot' items' => slot == slot' && sameItems items items'
  | mapping slot entries, mapping slot' entries' => slot == slot' && sameEntries entries entries'
  | reference slot, reference slot' => slot == slot'
  | _, _ => false

def sameItems : List Node → List Node → Bool
  | [], [] => true
  | item :: items, item' :: items' => same item item' && sameItems items items'
  | _, _ => false

def sameEntries : List (Node × Node) → List (Node × Node) → Bool
  | [], [] => true
  | (key, value) :: entries, (key', value') :: entries' =>
    same key key' && same value value' && sameEntries entries entries'
  | _, _ => false

end

mutual

theorem same_iff : (node other : Node) → (same node other = true ↔ node = other)
  | scalar _ _, scalar _ _ => by simp [same]
  | sequence _ items, sequence _ items' => by simp [same, sameItems_iff items items']
  | mapping _ entries, mapping _ entries' => by simp [same, sameEntries_iff entries entries']
  | reference _, reference _ => by simp [same]
  | scalar _ _, sequence _ _ | scalar _ _, mapping _ _ | scalar _ _, reference _
  | sequence _ _, scalar _ _ | sequence _ _, mapping _ _ | sequence _ _, reference _
  | mapping _ _, scalar _ _ | mapping _ _, sequence _ _ | mapping _ _, reference _
  | reference _, scalar _ _ | reference _, sequence _ _ | reference _, mapping _ _ => by simp [same]

theorem sameItems_iff : (items others : List Node) → (sameItems items others = true ↔ items = others)
  | [], [] | [], _ :: _ | _ :: _, [] => by simp [sameItems]
  | item :: items, item' :: items' => by
    simp [sameItems, same_iff item item', sameItems_iff items items']

theorem sameEntries_iff : (entries others : List (Node × Node)) →
    (sameEntries entries others = true ↔ entries = others)
  | [], [] | [], _ :: _ | _ :: _, [] => by simp [sameEntries]
  | (key, value) :: entries, (key', value') :: entries' => by
    simp [sameEntries, same_iff key key', same_iff value value', sameEntries_iff entries entries']

end

instance : DecidableEq Node := fun node other => decidable_of_iff _ (same_iff node other)

/-- The node of a slot: of those that were given the slot, the one that starts last. -/
def atSlot? (root : Node) (slot : Nat) : Option Node :=
  root.subnodes.reverse.find? fun node => node.slot == some slot

/-- The node that a node stands for. An alias stands for the node of its slot. -/
def resolve (root : Node) : Node → Option Node
  | reference slot => root.atSlot? slot
  | node => some node

end Node

end HedgedStore.Yaml
