import HedgedStore.Text.Hexadecimal

/-! A small part of XML, enough to read what a store says: elements with their texts. Attributes,
comments, instructions and declarations are passed over. -/
namespace HedgedStore.Markup

/-- A piece of markup. Names have lost what stands before a colon. -/
inductive Token where
  | opening (name : String)
  | closing (name : String)
  /-- A text between tags, as it is written. -/
  | text (s : List Char)
deriving DecidableEq, Repr

/-- Splits behind the first occurrence of a mark that ends the piece. -/
def breakAfter (mark : List Char) : List Char → Option (List Char × List Char)
  | [] => if mark.isEmpty then some ([], []) else none
  | c :: rest =>
    if mark.isPrefixOf (c :: rest) then some ([], (c :: rest).drop mark.length)
    else (breakAfter mark rest).map fun (before, after) => (c :: before, after)

/-- Splits behind the end of a tag; a quoted value may hold the mark that ends it. -/
def breakTag (quote : Option Char) : List Char → Option (List Char × List Char)
  | [] => none
  | c :: rest =>
    if quote = none ∧ c = '>' then some ([], rest)
    else
      let next := match quote with
        | some q => if c = q then none else some q
        | none => if c = '"' ∨ c = '\'' then some c else none
      (breakTag next rest).map fun (before, after) => (c :: before, after)

/-- The name that a tag begins with, without what stands before a colon. -/
def tagName (tag : List Char) : String :=
  let name := tag.takeWhile fun c => !(c.isWhitespace || c == '/' || c == '>')
  String.ofList ((name.reverse.takeWhile (· != ':')).reverse)

/-- The pieces of a text, if every tag ends. An empty element is a tag and its end. -/
def tokens? : Nat → List Char → Option (List Token)
  | 0, rest => if rest.isEmpty then some [] else none
  | _ + 1, [] => some []
  | fuel + 1, '<' :: '?' :: rest => do tokens? fuel (← breakAfter "?>".toList rest).2
  | fuel + 1, '<' :: '!' :: '-' :: '-' :: rest => do tokens? fuel (← breakAfter "-->".toList rest).2
  | fuel + 1, '<' :: '!' :: '[' :: rest => do tokens? fuel (← breakAfter "]]>".toList rest).2
  | fuel + 1, '<' :: '!' :: rest => do tokens? fuel (← breakTag none rest).2
  | fuel + 1, '<' :: '/' :: rest => do
    let (tag, rest) ← breakTag none rest
    return .closing (tagName tag) :: (← tokens? fuel rest)
  | fuel + 1, '<' :: rest => do
    let (tag, rest) ← breakTag none rest
    let name := tagName tag
    let later ← tokens? fuel rest
    if name.isEmpty then none
    else if tag.getLast? = some '/' then return .opening name :: .closing name :: later
    else return .opening name :: later
  | fuel + 1, c :: rest =>
    let text := (c :: rest).takeWhile (· != '<')
    (tokens? fuel ((c :: rest).dropWhile (· != '<'))).map (.text text :: ·)

/-- An element: its name, its first text, and the elements in it. -/
inductive Element where
  | mk (name : String) (text : Option (List Char)) (children : List Element)
deriving Repr

namespace Element

def name : Element → String
  | mk name _ _ => name

def children : Element → List Element
  | mk _ _ children => children

def entity? (name : List Char) : Option Char :=
  match name with
  | ['l', 't'] => some '<'
  | ['g', 't'] => some '>'
  | ['a', 'm', 'p'] => some '&'
  | ['q', 'u', 'o', 't'] => some '"'
  | ['a', 'p', 'o', 's'] => some '\''
  | '#' :: 'x' :: digits => if digits.isEmpty then none else character? (Text.hexValue? digits)
  | '#' :: digits =>
    if digits.all Char.isDigit then character? (String.ofList digits).toNat? else none
  | _ => none
where
  character? (n : Option Nat) : Option Char :=
    (n.filter fun n => decide n.isValidChar).map Char.ofNat

def decode? : Nat → List Char → Option (List Char)
  | 0, rest => if rest.isEmpty then some [] else none
  | _ + 1, [] => some []
  | fuel + 1, '&' :: rest => do
    let (name, rest) ← breakAfter [';'] rest
    return (← entity? name) :: (← decode? fuel rest)
  | fuel + 1, c :: rest => (decode? fuel rest).map (c :: ·)

/-- The text of an element without elements in it; none where there is no text is the empty one. -/
def data? : Element → Option String
  | mk _ none [] => some ""
  | mk _ (some text) _ => (decode? (text.length + 1) text).map String.ofList
  | mk _ none (_ :: _) => none

/-- The last child of that name. -/
def last? (element : Element) (name : String) : Option Element :=
  (element.children.filter (·.name == name)).getLast?

end Element

/-- An element that has not ended yet; its children are kept last one first. -/
structure Frame where
  name : String
  text : Option (List Char) := none
  children : List Element := []

/-- Puts an element into the innermost open one; without any it is the root. -/
def close (element : Element) : List Frame → List Frame × Option Element
  | [] => ([], some element)
  | frame :: outer => ({ frame with children := element :: frame.children } :: outer, none)

/-- Builds the root out of the pieces that are left. What follows the root is passed over. -/
def build? : List Frame → List Token → Option Element
  | _, [] => none
  | frames, .opening name :: rest => build? ({ name } :: frames) rest
  | [], .text s :: rest => if s.all Char.isWhitespace then build? [] rest else none
  | [], .closing _ :: _ => none
  | frame :: outer, .text s :: rest =>
    let text := match frame.text, frame.children with
      | none, [] => some s
      | text, _ => text
    build? ({ frame with text } :: outer) rest
  | frame :: outer, .closing name :: rest =>
    if name ≠ frame.name then none
    else
      match close (.mk frame.name frame.text frame.children.reverse) outer with
      | (_, some root) => some root
      | (frames, none) => build? frames rest

def root? (s : String) : Option Element := do
  let cs := s.toList
  build? [] (← tokens? (cs.length + 1) cs)

end HedgedStore.Markup
