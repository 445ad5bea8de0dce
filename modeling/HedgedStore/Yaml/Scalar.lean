import HedgedStore.Text.Hexadecimal
import HedgedStore.Yaml.Cursor
import HedgedStore.Yaml.Malformation
import HedgedStore.Yaml.Token

/-! Reading scalars: words with the gaps between them. A gap on one line is kept as written; a
gap over several lines is folded into one blank, or into the empty lines it holds. -/
namespace HedgedStore.Yaml

/-- What lies between two words: blanks on one line, or a line break with more line breaks. -/
structure Gap where
  blanks : List Char := []
  broken : Bool := false
  firstBreak : List Char := []
  moreBreaks : List Char := []

namespace Gap

/-- What a gap contributes to the text. -/
def folded (gap : Gap) : List Char :=
  if !gap.broken then gap.blanks
  else if gap.firstBreak.head? == some '\n' then
    if gap.moreBreaks.isEmpty then [' '] else gap.moreBreaks
  else gap.firstBreak ++ gap.moreBreaks

/-- Reads on over blanks and line breaks. A tab in the indentation of a later line, left of the
column `tabLimit`, is refused. -/
def scan (tabLimit : Nat) : Nat → Gap → Cursor → Except Malformation (Gap × Cursor)
  | 0, gap, c => .ok (gap, c)
  | steps + 1, gap, c =>
    match c.peek with
    | none => .ok (gap, c)
    | some ch =>
      if isGap ch then
        if gap.broken && ch == '\t' && c.column < tabLimit then .error .tabIndentation
        else if gap.broken then scan tabLimit steps gap (c.skip 1)
        else scan tabLimit steps { gap with blanks := gap.blanks ++ [ch] } (c.skip 1)
      else if isLineBreak ch then
        let (read, c) := c.takeBreak
        if gap.broken then scan tabLimit steps { gap with moreBreaks := gap.moreBreaks ++ read } c
        else scan tabLimit steps { gap with blanks := [], broken := true, firstBreak := read } c
      else .ok (gap, c)

end Gap

/-- The text of pieces that were collected last first. -/
def textOf (pieces : List (List Char)) : String := String.ofList pieces.reverse.flatten

/-- The character that stands behind a backslash for another one. -/
def namedEscape? : Char → Option Char
  | '0' => some '\x00'
  | 'a' => some '\x07'
  | 'b' => some '\x08'
  | 't' => some '\t'
  | '\t' => some '\t'
  | 'n' => some '\n'
  | 'v' => some '\x0b'
  | 'f' => some '\x0c'
  | 'r' => some '\r'
  | 'e' => some '\x1b'
  | ' ' => some ' '
  | '"' => some '"'
  | '/' => some '/'
  | '\\' => some '\\'
  | 'N' => some '\u0085'
  | '_' => some '\u00a0'
  | 'L' => some '\u2028'
  | 'P' => some '\u2029'
  | _ => none

/-- How many hexadecimal digits follow a numeric escape. -/
def numericEscape? : Char → Option Nat
  | 'x' => some 2
  | 'u' => some 4
  | 'U' => some 8
  | _ => none

/-- Reads the escape behind a backslash: the character it stands for, and its length. -/
def readEscape : List Char → Except Malformation (Char × Nat)
  | [] => .error .unknownEscape
  | ch :: rest =>
    match namedEscape? ch, numericEscape? ch with
    | some named, _ => .ok (named, 1)
    | none, some length =>
      let digits := rest.take length
      match Text.hexValue? digits with
      | some value =>
        if digits.length == length && value.isValidChar then .ok (Char.ofNat value, length + 1)
        else .error .unknownEscape
      | none => .error .unknownEscape
    | none, none => .error .unknownEscape

/-- Reads a quoted scalar behind its opening quote, up to and with the closing one. -/
def scanQuoted (double : Bool) :
    Nat → List (List Char) → Cursor → Except Malformation (String × Cursor)
  | 0, _, _ => .error .unterminatedQuote
  | steps + 1, pieces, c =>
    if c.atMarker '-' || c.atMarker '.' then .error .markerInsideQuote
    else match c.rest with
    | [] => .error .unterminatedQuote
    | ch :: rest =>
      if isGap ch || isLineBreak ch then do
        let (gap, c) ← Gap.scan 0 (steps + 1) {} c
        scanQuoted double steps (gap.folded :: pieces) c
      else if !double && ch == '\'' then
        if rest.head? == some '\'' then scanQuoted double steps (['\''] :: pieces) (c.skip 2)
        else .ok (textOf pieces, c.skip 1)
      else if double && ch == '"' then .ok (textOf pieces, c.skip 1)
      else if double && ch == '\\' then
        if rest.head?.any isLineBreak then do
          let (gap, c) ← Gap.scan 0 steps { broken := true } (c.skip 1).skipBreak
          scanQuoted double steps (gap.folded :: pieces) c
        else do
          let (read, length) ← readEscape rest
          scanQuoted double steps ([read] :: pieces) (c.skip (1 + length))
      else scanQuoted double steps ([ch] :: pieces) (c.skip 1)

/-- The word of a plain scalar at the start of a text. It ends before a blank, before a colon
that ends a word, and within a flow collection before what separates its entries. -/
def plainWord (inFlow : Bool) : List Char → Except Malformation (List Char)
  | [] => .ok []
  | ch :: rest =>
    if isGap ch || isLineBreak ch then .ok []
    else if inFlow && isFlowIndicator ch then .ok []
    else if ch == ':' then
      if inFlow && rest.head?.any (fun next => isFlowIndicator next || next == '?') then
        .error .unexpectedColon
      else if atWordEnd rest then .ok []
      else (plainWord inFlow rest).map (ch :: ·)
    else (plainWord inFlow rest).map (ch :: ·)

/-- Reads a plain scalar. Its lines stand at the column `indent` or further right, except within
a flow collection. The answer tells whether a line break was passed behind the last word. -/
def scanPlain (inFlow : Bool) (indent : Nat) :
    Nat → List (List Char) → Gap → Cursor → Except Malformation (String × Bool × Cursor)
  | 0, pieces, gap, c => .ok (textOf pieces, gap.broken, c)
  | steps + 1, pieces, gap, c =>
    if c.atMarker '-' || c.atMarker '.' || c.at? '#' then .ok (textOf pieces, gap.broken, c)
    else do
      let word ← plainWord inFlow c.rest
      if word.isEmpty then .ok (textOf pieces, gap.broken, c)
      else
        let pieces := word :: gap.folded :: pieces
        let (gap, c) ← Gap.scan indent (steps + 1) {} (c.skip word.length)
        if !inFlow && c.column < indent then .ok (textOf pieces, gap.broken, c)
        else scanPlain inFlow indent steps pieces gap c

/-- What happens to the line breaks at the end of a block scalar. -/
inductive Chomping where
  | strip
  | clip
  | keep
deriving DecidableEq

/-- Passes the empty lines before a line of a block scalar, and the indentation of that line.
While the indentation is unknown, any number of blanks belongs to it; the answer tells the
furthest column. -/
def scanIndentation (indent : Option Nat) :
    Nat → Nat → List Char → Cursor → Except Malformation (Nat × List Char × Cursor)
  | 0, furthest, breaks, c => .ok (furthest, breaks, c)
  | steps + 1, furthest, breaks, c =>
    let blanks := (c.rest.takeWhile (· == ' ')).length
    let c := c.skip (match indent with
      | none => blanks
      | some indent => min blanks (indent - c.column))
    let furthest := max furthest c.column
    let inside := match indent with
      | none => true
      | some indent => decide (c.column < indent)
    if inside && c.at? '\t' then .error .tabIndentation
    else if c.peek.any isLineBreak then
      let (read, c) := c.takeBreak
      scanIndentation indent steps furthest (breaks ++ read) c
    else .ok (furthest, breaks, c)

/-- The line break before a line of a folded scalar is a blank when both lines start with a word
and no empty line lies between them; all else stays. -/
def blockJoin (folded afterBlank beforeBlank : Bool) (lineBreak emptyLines : List Char) :
    List Char :=
  if folded && lineBreak.head? == some '\n' && !afterBlank && !beforeBlank then
    if emptyLines.isEmpty then [' '] else emptyLines
  else lineBreak ++ emptyLines

/-- Reads the lines of a block scalar that stand at the column `indent`. -/
def scanBlockLines (folded : Bool) (chomping : Chomping) (indent : Nat) :
    Nat → List (List Char) → List Char → List Char → Bool → Cursor →
      Except Malformation (String × Cursor)
  | 0, pieces, _, _, _, c => .ok (textOf pieces, c)
  | steps + 1, pieces, lineBreak, emptyLines, afterBlank, c =>
    if c.column == indent && !c.rest.isEmpty then do
      let startsBlank := c.peek.any isGap
      let join := blockJoin folded afterBlank startsBlank lineBreak emptyLines
      let (line, c) := c.span (fun ch => !isLineBreak ch)
      let (lineBreak, c) := c.takeBreak
      let (_, emptyLines, c) ← scanIndentation (some indent) (steps + 1) 0 [] c
      scanBlockLines folded chomping indent steps (line :: join :: pieces) lineBreak emptyLines
        startsBlank c
    else
      let ending := match chomping with
        | .strip => []
        | .clip => lineBreak
        | .keep => lineBreak ++ emptyLines
      .ok (textOf (ending :: pieces), c)

/-- Reads the chomping mark and the indentation digit behind `|` or `>`, in either order. -/
def readBlockHeader (cs : List Char) : Except Malformation (Chomping × Option Nat × Nat) :=
  let chomping? : Char → Option Chomping := fun ch =>
    if ch == '+' then some .keep else if ch == '-' then some .strip else none
  let digit? : Char → Option Nat := fun ch =>
    if ch.isDigit then some (ch.toNat - '0'.toNat) else none
  let (chomping, increment, length) : Option Chomping × Option Nat × Nat :=
    match cs.head?.bind chomping?, cs.head?.bind digit? with
    | some chomping, _ =>
      match (cs.drop 1).head?.bind digit? with
      | some increment => (some chomping, some increment, 2)
      | none => (some chomping, none, 1)
    | none, some increment =>
      match (cs.drop 1).head?.bind chomping? with
      | some chomping => (some chomping, some increment, 2)
      | none => (none, some increment, 1)
    | none, none => (none, none, 0)
  if increment == some 0 then .error .malformedBlockHeader
  else .ok (chomping.getD .clip, increment, length)

/-- Reads a block scalar behind its indicator. Its lines stand further right than `parent`, the
indentation of the collection around it. -/
def scanBlock (folded : Bool) (parent : Int) (c : Cursor) :
    Except Malformation (String × Cursor) := do
  let (chomping, increment, length) ← readBlockHeader c.rest
  let c := ((c.skip length).skipWhile isGap).skipComment
  if !atLineEnd c.rest then throw .malformedBlockHeader
  let c := c.skipBreak
  let steps := c.total + 1
  let known := increment.map fun n => (max parent 0).toNat + n
  let (furthest, emptyLines, c) ← scanIndentation known steps 0 [] c
  let indent := known.getD (max furthest (max (parent + 1) 1).toNat)
  scanBlockLines folded chomping indent steps [] [] emptyLines false c

end HedgedStore.Yaml
