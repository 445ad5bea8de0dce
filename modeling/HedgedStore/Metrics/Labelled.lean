/-! Things that are told apart by their label values, kept in the order of those values. -/
namespace HedgedStore

/-- Each tuple of label values stands for one thing at most. -/
structure Labelled (α : Type) where
  entries : List (List String × α) := []
deriving Repr

namespace Labelled

variable {α : Type}

instance : Inhabited (Labelled α) := ⟨{}⟩

def find? (family : Labelled α) (values : List String) : Option α := family.entries.lookup values

/-- Adds an entry in front of the first one whose values come after it. -/
def insertEntry (values : List String) (a : α) : List (List String × α) → List (List String × α)
  | [] => [(values, a)]
  | entry :: rest =>
    if values < entry.1 then (values, a) :: entry :: rest
    else entry :: insertEntry values a rest

/-- Replaces what stands for these values. -/
def replaceEntry (values : List String) (a : α) : List (List String × α) → List (List String × α)
  | [] => []
  | entry :: rest =>
    if entry.1 = values then (values, a) :: rest else entry :: replaceEntry values a rest

/-- Puts a thing in the place of the one with these values, or adds it. -/
def insert (family : Labelled α) (values : List String) (a : α) : Labelled α :=
  match family.find? values with
  | some _ => ⟨replaceEntry values a family.entries⟩
  | none => ⟨insertEntry values a family.entries⟩

end Labelled

end HedgedStore
