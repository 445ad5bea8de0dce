import HedgedStore.Text.Quoted

/-! Values shown to a person who looks into the program: records by name and field, on one line
or as an indented block with one field a line. -/
namespace HedgedStore.Text

/-- Where a value is shown: within a line, or in a block that stands so many steps in. -/
inductive Layout where
  | line
  | block (depth : Nat)
deriving DecidableEq, Repr

/-- A value that can be shown in any layout. -/
abbrev Shown := Layout → String

namespace Shown

/-- The blanks in front of a line of a block, four for each step. -/
def indent (depth : Nat) : String := String.ofList (List.replicate (4 * depth) ' ')

/-- A text that looks the same everywhere. -/
def plain (s : String) : Shown := fun _ => s

def quoted (s : String) : Shown := plain (quote s)

def bool (b : Bool) : Shown := plain (if b then "true" else "false")

def nat (n : Nat) : Shown := plain (toString n)

def option : Option Shown → Shown
  | none, _ => "None"
  | some x, .line => "Some(" ++ x .line ++ ")"
  | some x, .block depth =>
    "Some(\n" ++ indent (depth + 1) ++ x (.block (depth + 1)) ++ ",\n" ++ indent depth ++ ")"

/-- A record with all its fields, or with a mark for those that stay hidden. -/
def record (name : String) (fields : List (String × Shown)) (hidden : Bool := false) : Shown
  | .line =>
    let shown := fields.map fun field => field.1 ++ ": " ++ field.2 .line
    name ++ " \x7b " ++ ", ".intercalate (if hidden then shown ++ [".."] else shown) ++ " \x7d"
  | .block depth =>
    let shown := fields.map fun field =>
      indent (depth + 1) ++ field.1 ++ ": " ++ field.2 (.block (depth + 1)) ++ ",\n"
    let rest := if hidden then indent (depth + 1) ++ "..\n" else ""
    name ++ " \x7b\n" ++ String.join shown ++ rest ++ indent depth ++ "\x7d"

def onLine (x : Shown) : String := x .line

/-- The value as a block at the left margin. -/
def asBlock (x : Shown) : String := x (.block 0)

end Shown

end HedgedStore.Text
