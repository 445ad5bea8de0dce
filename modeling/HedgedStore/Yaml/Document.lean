import HedgedStore.Yaml.Lexer
import HedgedStore.Yaml.Node

/-! From tokens to the one document of a text. -/
namespace HedgedStore.Yaml

/-- The tokens that are left, and what names mean at this point. -/
structure Reader where
  tokens : List Token
  /-- The slots of the anchors so far, by name. -/
  anchors : List (String × Nat) := []
  /-- What tag handles stand for. -/
  handles : List (String × String) := []

abbrev Reading := StateT Reader (Except Malformation)

namespace Reading

def peek : Reading (Option Token) := return (← get).tokens.head?

def drop : Reading Unit := modify fun r => { r with tokens := r.tokens.tail }

/-- Whether the next token is none of these and not the end. -/
def continues (stops : List Token) : Reading Bool :=
  return match ← peek with
  | none => false
  | some token => !stops.contains token

def bindAnchor : Option String → Reading (Option Nat)
  | none => return none
  | some name => do
    let anchors := (← get).anchors
    let others := anchors.filter fun anchor => anchor.1 != name
    modify fun r => { r with anchors := (name, anchors.length) :: others }
    return some anchors.length

/-- A part of a tag as far as it counts: an escaped NUL ends it. -/
def tagPart (part : String) : String :=
  String.ofList (part.toList.takeWhile (· != '\x00'))

def fullTag (handle suffix : String) : Reading String := do
  if handle.isEmpty then return tagPart suffix
  match (← get).handles.lookup handle with
  | some meaning => return tagPart meaning ++ tagPart suffix
  | none => throw .undefinedTagHandle

/-- Reads an anchor and a tag, in either order. -/
def properties : Reading (Option String × Option String) := do
  match ← peek with
  | some (.anchor name) =>
    drop
    match ← peek with
    | some (.tag handle suffix) =>
      drop
      return (some name, some (← fullTag handle suffix))
    | _ => return (some name, none)
  | some (.tag handle suffix) =>
    drop
    match ← peek with
    | some (.anchor name) =>
      drop
      return (some name, some (← fullTag handle suffix))
    | _ => return (none, some (← fullTag handle suffix))
  | _ => return (none, none)

/-- Passes the separator in front of a further entry of a flow collection. -/
def separator (first : Bool) (close : Token) : Reading Unit := do
  if !first && (← peek) != some close then
    if (← peek) == some .flowEntry then drop else throw .expectedSeparator

mutual

/-- Reads a node. Block collections can stand in block context only, and a sequence can stand at
the indentation of the mapping around it only as a value there. -/
def node (block indentless : Bool) : Nat → Reading Node
  | 0 => throw .expectedNode
  | steps + 1 => do
    if let some (.reference name) ← peek then
      drop
      match (← get).anchors.lookup name with
      | some slot => return .reference slot
      | none => throw .undefinedAnchor
    let (anchor, tag) ← properties
    match ← peek, block, indentless with
    | some .blockEntry, _, true =>
      let slot ← bindAnchor anchor
      return .sequence slot (← indentlessItems steps)
    | some (.scalar text style), _, _ =>
      drop
      let slot ← bindAnchor anchor
      return .scalar slot ⟨text, style, tag⟩
    | some .flowSequenceStart, _, _ =>
      drop
      let slot ← bindAnchor anchor
      return .sequence slot (← flowItems true steps)
    | some .flowMappingStart, _, _ =>
      drop
      let slot ← bindAnchor anchor
      return .mapping slot (← flowEntries true steps)
    | some .blockSequenceStart, true, _ =>
      drop
      let slot ← bindAnchor anchor
      return .sequence slot (← blockItems steps)
    | some .blockMappingStart, true, _ =>
      drop
      let slot ← bindAnchor anchor
      return .mapping slot (← blockEntries steps)
    | _, _, _ =>
      if anchor.isNone && tag.isNone then throw .expectedNode
      return .scalar (← bindAnchor anchor) { Scalar.empty with tag }

/-- Reads a node, or takes the empty scalar before one of these tokens. -/
def nodeUnless (stops : List Token) (block indentless : Bool) : Nat → Reading Node
  | 0 => throw .expectedNode
  | steps + 1 => do
    if ← continues stops then node block indentless steps else return .scalar none .empty

def blockItems : Nat → Reading (List Node)
  | 0 => throw .expectedNode
  | steps + 1 => do
    match ← peek with
    | some .blockEntry =>
      drop
      let item ← nodeUnless [.blockEntry, .blockEnd] true false steps
      return item :: (← blockItems steps)
    | some .blockEnd =>
      drop
      return []
    | _ => throw .expectedSequenceEntry

def indentlessItems : Nat → Reading (List Node)
  | 0 => throw .expectedNode
  | steps + 1 => do
    if (← peek) == some .blockEntry then
      drop
      let item ← nodeUnless [.blockEntry, .key, .value, .blockEnd] true false steps
      return item :: (← indentlessItems steps)
    else return []

def blockEntries : Nat → Reading (List (Node × Node))
  | 0 => throw .expectedNode
  | steps + 1 => do
    match ← peek with
    | some .key =>
      drop
      let key ← nodeUnless [.key, .value, .blockEnd] true true steps
      let value ←
        if (← peek) == some .value then do
          drop
          nodeUnless [.key, .value, .blockEnd] true true steps
        else pure (.scalar none .empty)
      return (key, value) :: (← blockEntries steps)
    | some .blockEnd =>
      drop
      return []
    | _ => throw .expectedKey

/-- Reads the items of a flow sequence. A pair among them is a mapping of one entry; where its
key is left out, the token that shows it is passed. -/
def flowItems (first : Bool) : Nat → Reading (List Node)
  | 0 => throw .expectedNode
  | steps + 1 => do
    separator first .flowSequenceEnd
    match ← peek with
    | some .flowSequenceEnd =>
      drop
      return []
    | some .key =>
      drop
      let key ←
        if ← continues [.value, .flowEntry, .flowSequenceEnd] then node false false steps
        else do
          drop
          pure (.scalar none .empty)
      let value ←
        if (← peek) == some .value then do
          drop
          nodeUnless [.flowEntry, .flowSequenceEnd] false false steps
        else pure (.scalar none .empty)
      return .mapping none [(key, value)] :: (← flowItems false steps)
    | _ =>
      let item ← node false false steps
      return item :: (← flowItems false steps)

def flowEntries (first : Bool) : Nat → Reading (List (Node × Node))
  | 0 => throw .expectedNode
  | steps + 1 => do
    separator first .flowMappingEnd
    match ← peek with
    | some .flowMappingEnd =>
      drop
      return []
    | some .key =>
      drop
      let key ← nodeUnless [.value, .flowEntry, .flowMappingEnd] false false steps
      let value ←
        if (← peek) == some .value then do
          drop
          nodeUnless [.flowEntry, .flowMappingEnd] false false steps
        else pure (.scalar none .empty)
      return (key, value) :: (← flowEntries false steps)
    | _ =>
      let key ← node false false steps
      return (key, .scalar none .empty) :: (← flowEntries false steps)

end

def directives : Nat → Bool → Reading Unit
  | 0, _ => return
  | steps + 1, versioned => do
    match ← peek with
    | some (.version major minor) =>
      if versioned then throw .repeatedDirective
      if major != 1 || (minor != 1 && minor != 2) then throw .unsupportedVersion
      drop
      directives steps true
    | some (.tagHandle handle meaning) =>
      if ((← get).handles.lookup handle).isSome then throw .repeatedDirective
      modify fun r => { r with handles := (handle, meaning) :: r.handles }
      drop
      directives steps versioned
    | _ => return

/-- What tag handles stand for unless a directive says otherwise. -/
def defaultHandles : List (String × String) := [("!", "!"), ("!!", "tag:yaml.org,2002:")]

def isDirective : Token → Bool
  | .version _ _ | .tagHandle _ _ => true
  | _ => false

def firstDocument (steps : Nat) : Reading (Option Node) := do
  match ← peek with
  | none => return none
  | some token =>
    if isDirective token || token == .documentStart then
      directives steps false
      modify fun r => { r with handles := r.handles ++ defaultHandles }
      if (← peek) != some .documentStart then throw .expectedDocumentStart
      drop
      match ← peek with
      | none | some .documentStart | some .documentEnd => return some (.scalar none .empty)
      | some next =>
        if isDirective next then return some (.scalar none .empty)
        else return some (← node true false steps)
    else
      modify fun r => { r with handles := defaultHandles }
      return some (← node true false steps)

def onlyDocument (steps : Nat) : Reading (Option Node) := do
  let document ← firstDocument steps
  let rest := (← get).tokens.dropWhile (· == .documentEnd)
  if rest.isEmpty then return document else throw .severalDocuments

end Reading

/-- The root of the document that a text holds; none if the text holds no token at all. -/
def document? (text : List Char) : Except Malformation (Option Node) := do
  let tokens ← tokens text
  let (root, _) ← (Reading.onlyDocument (3 * tokens.size + 8)).run { tokens := tokens.toList }
  return root

end HedgedStore.Yaml
