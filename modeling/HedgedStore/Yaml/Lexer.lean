import HedgedStore.Yaml.Property

/-! From characters to tokens. Block structure is told by indentation: a stack of columns says
which block collections are open. A mapping key is known only by the colon behind it, so every
place where a key may start is remembered, one for each level of flow collections, and the key
token is put in front of that place afterwards. -/
namespace HedgedStore.Yaml

/-- A place where a mapping key may have started. -/
structure KeyPlace where
  /-- How many tokens were read before it. -/
  tokens : Nat
  offset : Nat
  line : Nat
  column : Nat
  /-- Something else than a key would be out of place here. -/
  required : Bool

structure Lexer where
  cursor : Cursor
  tokens : Array Token := #[]
  /-- The columns of the open block collections, innermost first. -/
  indents : List Nat := []
  /-- The possible key on the innermost level of flow collections. -/
  place : Option KeyPlace := none
  /-- The same for the levels around it; there are as many as flow collections are open. -/
  outer : List (Option KeyPlace) := []
  /-- A key may start here. -/
  keyAllowed : Bool := true

namespace Lexer

/-- The column of the innermost block collection, or one less than any column. -/
def indent (l : Lexer) : Int :=
  match l.indents with
  | [] => -1
  | column :: _ => column

def inFlow (l : Lexer) : Bool := !l.outer.isEmpty

def push (l : Lexer) (token : Token) : Lexer := { l with tokens := l.tokens.push token }

/-- A key has to stand on one line, within 1024 bytes. -/
def isStale (c : Cursor) (place : KeyPlace) : Bool :=
  place.line < c.line || place.offset + 1024 < c.offset

/-- Gives up the places where a key can no longer have started. -/
def dropStale (l : Lexer) : Except Malformation Lexer :=
  let stale := (l.place :: l.outer).filterMap fun place => place.filter (isStale l.cursor)
  if stale.any (·.required) then .error .missingColon
  else
    let keep := fun (place : Option KeyPlace) => place.filter fun p => !isStale l.cursor p
    .ok { l with place := keep l.place, outer := l.outer.map keep }

def dropPlace (l : Lexer) : Except Malformation Lexer :=
  if l.place.any (·.required) then .error .missingColon else .ok { l with place := none }

/-- Remembers that a key may start here. -/
def markPlace (l : Lexer) : Except Malformation Lexer :=
  if !l.keyAllowed then .ok l
  else do
    let c := l.cursor
    let required := !l.inFlow && l.indent == c.column
    let l ← l.dropPlace
    return { l with place := some ⟨l.tokens.size, c.offset, c.line, c.column, required⟩ }

/-- Opens a block collection at a column that lies further right than the open ones, its token
standing before those from `index` on. -/
def openBlock (l : Lexer) (column index : Nat) (token : Token) : Lexer :=
  if l.inFlow || l.indent ≥ column then l
  else { l with indents := column :: l.indents, tokens := l.tokens.insertIdxIfInBounds index token }

/-- Closes the block collections that stand further right than a column. -/
def closeBlocks (l : Lexer) (column : Int) : Lexer :=
  if l.inFlow then l
  else
    let closed := l.indents.takeWhile fun (indent : Nat) => decide (column < indent)
    { l with
      indents := l.indents.drop closed.length
      tokens := l.tokens ++ Array.replicate closed.length Token.blockEnd }

/-- Passes blanks, comments and line breaks. A tab counts as a blank where no key can start. A
line may start with a byte order mark, which takes a column. -/
def skipToToken : Nat → Lexer → Lexer
  | 0, l => l
  | steps + 1, l =>
    let c := l.cursor
    let c := if c.column == 0 && c.at? '\ufeff' then c.skip 1 else c
    let tabs := l.inFlow || !l.keyAllowed
    let c := (c.skipWhile fun ch => ch == ' ' || (tabs && ch == '\t')).skipComment
    if c.peek.any isLineBreak then
      skipToToken steps { l with cursor := c.skipBreak, keyAllowed := l.keyAllowed || !l.inFlow }
    else { l with cursor := c }

/-- Reads an indicator of a given length as a token. -/
def take (l : Lexer) (length : Nat) (token : Token) : Lexer :=
  { l with cursor := l.cursor.skip length }.push token

def openFlow (l : Lexer) (token : Token) : Except Malformation Lexer := do
  let l ← l.markPlace
  return { l with place := none, outer := l.place :: l.outer, keyAllowed := true }.take 1 token

def closeFlow (l : Lexer) (token : Token) : Except Malformation Lexer := do
  let l ← l.dropPlace
  let l := match l.outer with
    | [] => l
    | place :: outer => { l with place, outer }
  return { l with keyAllowed := false }.take 1 token

def readFlowEntry (l : Lexer) : Except Malformation Lexer := do
  let l ← l.dropPlace
  return { l with keyAllowed := true }.take 1 .flowEntry

def readBlockEntry (l : Lexer) : Except Malformation Lexer := do
  if !l.inFlow && !l.keyAllowed then throw .misplacedSequenceEntry
  let l ← (l.openBlock l.cursor.column l.tokens.size .blockSequenceStart).dropPlace
  return { l with keyAllowed := true }.take 1 .blockEntry

def readKey (l : Lexer) : Except Malformation Lexer := do
  if !l.inFlow && !l.keyAllowed then throw .misplacedKey
  let l ← (l.openBlock l.cursor.column l.tokens.size .blockMappingStart).dropPlace
  return { l with keyAllowed := !l.inFlow }.take 1 .key

/-- Reads the colon in front of a value. If a key can have started on this level it did. -/
def readValue (l : Lexer) : Except Malformation Lexer :=
  match l.place with
  | some place =>
    let l := { l with tokens := l.tokens.insertIdxIfInBounds place.tokens .key }
    let l := l.openBlock place.column place.tokens .blockMappingStart
    .ok ({ l with place := none, keyAllowed := false }.take 1 .value)
  | none =>
    if !l.inFlow && !l.keyAllowed then .error .misplacedValue
    else
      let l := l.openBlock l.cursor.column l.tokens.size .blockMappingStart
      .ok ({ l with keyAllowed := !l.inFlow }.take 1 .value)

def readMarker (l : Lexer) (token : Token) : Except Malformation Lexer := do
  let l ← (l.closeBlocks (-1)).dropPlace
  return { l with keyAllowed := false }.take 3 token

def readDirective (l : Lexer) : Except Malformation Lexer := do
  let l ← (l.closeBlocks (-1)).dropPlace
  let (token, cursor) ← scanDirective l.cursor
  return { l with keyAllowed := false, cursor }.push token

def readAnchor (l : Lexer) (token : String → Token) : Except Malformation Lexer := do
  let l ← l.markPlace
  let (name, cursor) ← scanAnchor l.cursor
  return { l with keyAllowed := false, cursor }.push (token name)

def readTag (l : Lexer) : Except Malformation Lexer := do
  let l ← l.markPlace
  let (token, cursor) ← scanTag l.inFlow l.cursor
  return { l with keyAllowed := false, cursor }.push token

def readBlockScalar (l : Lexer) (folded : Bool) : Except Malformation Lexer := do
  let l ← l.dropPlace
  let (text, cursor) ← scanBlock folded l.indent (l.cursor.skip 1)
  return { l with keyAllowed := true, cursor }.push
    (.scalar text (if folded then .folded else .literal))

def readQuoted (l : Lexer) (double : Bool) : Except Malformation Lexer := do
  let l ← l.markPlace
  let (text, cursor) ← scanQuoted double (l.cursor.total + 1) [] (l.cursor.skip 1)
  return { l with keyAllowed := false, cursor }.push
    (.scalar text (if double then .doubleQuoted else .singleQuoted))

def readPlain (l : Lexer) : Except Malformation Lexer := do
  let l ← l.markPlace
  let (text, broken, cursor) ←
    scanPlain l.inFlow (l.indent + 1).toNat (l.cursor.total + 1) [] {} l.cursor
  return { l with keyAllowed := broken, cursor }.push (.scalar text .plain)

/-- Reads the token that starts with the character `ch`, the rest of the text being `rest`. -/
def readToken (l : Lexer) (ch : Char) (rest : List Char) : Except Malformation Lexer :=
  if l.cursor.column == 0 && ch == '%' then l.readDirective
  else if l.cursor.atMarker '-' then l.readMarker .documentStart
  else if l.cursor.atMarker '.' then l.readMarker .documentEnd
  else if ch == '[' then l.openFlow .flowSequenceStart
  else if ch == '{' then l.openFlow .flowMappingStart
  else if ch == ']' then l.closeFlow .flowSequenceEnd
  else if ch == '}' then l.closeFlow .flowMappingEnd
  else if ch == ',' then l.readFlowEntry
  else if ch == '-' && atWordEnd rest then l.readBlockEntry
  else if ch == '?' && (l.inFlow || atWordEnd rest) then l.readKey
  else if ch == ':' && (l.inFlow || atWordEnd rest) then l.readValue
  else if ch == '*' then l.readAnchor .reference
  else if ch == '&' then l.readAnchor .anchor
  else if ch == '!' then l.readTag
  else if ch == '|' && !l.inFlow then l.readBlockScalar false
  else if ch == '>' && !l.inFlow then l.readBlockScalar true
  else if ch == '\'' then l.readQuoted false
  else if ch == '"' then l.readQuoted true
  else if isGap ch || (",[]#|>%@".toList ++ ['{', '}', Char.ofNat 0x60]).contains ch then
    .error .unexpectedCharacter
  else l.readPlain

def readAll : Nat → Lexer → Except Malformation (Array Token)
  | 0, l => .ok l.tokens
  | steps + 1, l => do
    let l ← (l.skipToToken (l.cursor.total + 1)).dropStale
    match l.cursor.rest with
    | [] =>
      let l ← (l.closeBlocks (-1)).dropPlace
      return l.tokens
    | ch :: rest => readAll steps (← (l.closeBlocks l.cursor.column).readToken ch rest)

end Lexer

def tokens (text : List Char) : Except Malformation (Array Token) :=
  if text.all isAcceptable then
    Lexer.readAll (text.length + 1) { cursor := .ofChars text }
  else .error .unacceptableCharacter

end HedgedStore.Yaml
