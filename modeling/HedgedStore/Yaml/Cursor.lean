/-! Character classes of YAML text, and a place in such a text: what remains from there on, and
how far in, on which line and in which column it stands. -/
namespace HedgedStore.Yaml

/-- A character that a YAML text may hold. -/
def isAcceptable (c : Char) : Bool :=
  let n := c.toNat
  n == 0x09 || n == 0x0a || n == 0x0d || (0x20 ≤ n && n ≤ 0x7e) || n == 0x85 ||
  (0xa0 ≤ n && n ≤ 0xd7ff) || (0xe000 ≤ n && n ≤ 0xfffd) || 0x10000 ≤ n

def isLineBreak (c : Char) : Bool :=
  c == '\n' || c == '\r' || c == '\u0085' || c == '\u2028' || c == '\u2029'

/-- A character that separates words on a line. -/
def isGap (c : Char) : Bool := c == ' ' || c == '\t'

/-- A character of an anchor, of a tag handle or of the name of a directive. -/
def isWordChar (c : Char) : Bool :=
  c.isAlphanum || c == '_' || c == '-'

/-- A character that closes or separates entries of a flow collection. -/
def isFlowIndicator (c : Char) : Bool :=
  c == ',' || c == '[' || c == ']' || c == '{' || c == '}'

/-- The text is over, or goes on with a character that separates words or lines. -/
def atWordEnd : List Char → Bool
  | [] => true
  | c :: _ => isGap c || isLineBreak c

/-- The text is over, or goes on with a line break. -/
def atLineEnd : List Char → Bool
  | [] => true
  | c :: _ => isLineBreak c

structure Cursor where
  rest : List Char
  /-- How many characters the whole text has. More steps than that never lead on. -/
  total : Nat
  /-- How many bytes lie before this place, the text being in UTF-8. -/
  offset : Nat
  line : Nat
  column : Nat

namespace Cursor

def ofChars (cs : List Char) : Cursor := ⟨cs, cs.length, 0, 0, 0⟩

def peek (c : Cursor) : Option Char := c.rest.head?

def at? (c : Cursor) (ch : Char) : Bool := c.rest.head? == some ch

/-- Passes `n` characters of the current line. -/
def skip (c : Cursor) (n : Nat) : Cursor :=
  let bytes := (c.rest.take n).foldl (fun bytes ch => bytes + ch.utf8Size) 0
  { c with rest := c.rest.drop n, offset := c.offset + bytes, column := c.column + n }

/-- The characters from here on that satisfy `p`, none of them a line break, and the place
behind them. -/
def span (c : Cursor) (p : Char → Bool) : List Char × Cursor :=
  let taken := c.rest.takeWhile p
  (taken, c.skip taken.length)

def skipWhile (c : Cursor) (p : Char → Bool) : Cursor := (c.span p).2

/-- Passes a line break, where there is one. A carriage return takes a line feed with it. The
break is read as a line feed, only the two Unicode separators stand for themselves. -/
def takeBreak (c : Cursor) : List Char × Cursor :=
  let below (rest : List Char) (bytes : Nat) : Cursor :=
    { c with rest, offset := c.offset + bytes, line := c.line + 1, column := 0 }
  match c.rest with
  | '\r' :: '\n' :: rest => (['\n'], below rest 2)
  | ch :: rest =>
    if isLineBreak ch then
      let read := if ch == '\u2028' || ch == '\u2029' then ch else '\n'
      ([read], below rest ch.utf8Size)
    else ([], c)
  | [] => ([], c)

def skipBreak (c : Cursor) : Cursor := c.takeBreak.2

/-- A comment runs to the end of its line. -/
def skipComment (c : Cursor) : Cursor :=
  if c.at? '#' then c.skipWhile (fun ch => !isLineBreak ch) else c

/-- A line that starts with three times `mark` alone. -/
def atMarker (c : Cursor) (mark : Char) : Bool :=
  c.column == 0 && c.rest.take 3 == [mark, mark, mark] && atWordEnd (c.rest.drop 3)

end Cursor

end HedgedStore.Yaml
