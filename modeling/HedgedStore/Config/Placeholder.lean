import HedgedStore.Bytes

/-! Placeholders for environment variables. A text is taken apart into placeholders, each at the
leftmost place where one starts, and the characters between them; then every placeholder gives
way to its value, which is not looked at again. -/
namespace HedgedStore

/-- The variables that are set to a text. -/
abbrev Environment := String → Option String

/-- A variable that is set to bytes that are no text counts as not set. -/
def Environment.ofBytes (assigned : String → Option Bytes) : Environment :=
  fun name => (assigned name).bind fun bytes => String.fromUTF8? ⟨bytes.toArray⟩

/-- A variable in braces behind a dollar sign, with or without a default. -/
structure Placeholder where
  name : String
  default : Option String
deriving DecidableEq, Repr

namespace Placeholder

def isNameStart (c : Char) : Bool := c.isUpper || c == '_'

def isNameChar (c : Char) : Bool := isNameStart c || c.isDigit

def source (p : Placeholder) : List Char :=
  ['$', '{'] ++ p.name.toList ++
    (match p.default with
    | some text => [':', '-'] ++ text.toList
    | none => []) ++ ['}']

/-- The value of the variable, else the default, else the placeholder itself. -/
def value (environment : Environment) (p : Placeholder) : List Char :=
  match environment p.name, p.default with
  | some value, _ => value.toList
  | none, some default => default.toList
  | none, none => p.source

def atStart? : List Char → Option Placeholder
  | '$' :: '{' :: cs =>
    let name := cs.takeWhile isNameChar
    if name.head?.any isNameStart then
      match cs.dropWhile isNameChar with
      | '}' :: _ => some ⟨String.ofList name, none⟩
      | ':' :: '-' :: rest =>
        if rest.contains '}' then
          some ⟨String.ofList name, some (String.ofList (rest.takeWhile (· != '}')))⟩
        else none
      | _ => none
    else none
  | _ => none

end Placeholder

/-- A part of a text that may hold placeholders. -/
inductive TextPart where
  | char (c : Char)
  | placeholder (p : Placeholder)
deriving DecidableEq, Repr

namespace TextPart

def source : TextPart → List Char
  | char c => [c]
  | placeholder p => p.source

def value (environment : Environment) : TextPart → List Char
  | char c => [c]
  | placeholder p => p.value environment

/-- Takes a text apart, its first `skipped` characters belonging to a placeholder already
found. -/
def split : Nat → List Char → List TextPart
  | _, [] => []
  | skipped + 1, _ :: cs => split skipped cs
  | 0, c :: cs =>
    match Placeholder.atStart? (c :: cs) with
    | some p => placeholder p :: split (p.source.length - 1) cs
    | none => char c :: split 0 cs

end TextPart

def expand (environment : Environment) (s : String) : String :=
  String.ofList ((TextPart.split 0 s.toList).flatMap (TextPart.value environment))

end HedgedStore
