import HedgedStore.Text.Alphanumeric
import HedgedStore.Text.Blank
import HedgedStore.Text.Hexadecimal

/-! Patterns: regular expressions over the characters of a text. Nothing is matched here; the only
question is whether a text is a pattern, and if not, which part of it is wrong. A pattern is read
from left to right with the groups that are open; what depends on the meaning of its parts is
complained of only when all parts are well formed. -/
namespace HedgedStore.Text.Pattern

inductive Wrong where
  | repetitionMissing
  | countEmpty
  | countUnclosed
  | groupUnclosed
  | groupUnopened
  | lookAround
  | nameUnclosed
  | nameInvalid
  | nameEmpty
  | nameRepeated
  | flagUnknown
  | flagExpected
  | flagRepeated
  | negationRepeated
  | negationDangling
  | classUnclosed
  | classEscape
  | rangeBound
  | rangeOrder
  | escapeEnds
  | escapeUnknown
  | hexDigit
  | hexValue
  | backreference
  | boundOpen
  | boundUnclosed
  | propertyInvalid
  | propertyUnknown
  | unicodeExcluded
  | invalidBytes
deriving DecidableEq, Repr

def Wrong.text : Wrong → String
  | repetitionMissing => "repetition operator missing expression"
  | countEmpty => "repetition quantifier expects a valid decimal"
  | countUnclosed => "unclosed counted repetition"
  | groupUnclosed => "unclosed group"
  | groupUnopened => "unopened group"
  | lookAround => "look-around, including look-ahead and look-behind, is not supported"
  | nameUnclosed => "unclosed capture group name"
  | nameInvalid => "invalid capture group character"
  | nameEmpty => "empty capture group name"
  | nameRepeated => "duplicate capture group name"
  | flagUnknown => "unrecognized flag"
  | flagExpected => "expected flag but got end of regex"
  | flagRepeated => "duplicate flag"
  | negationRepeated => "flag negation operator repeated"
  | negationDangling => "dangling flag negation operator"
  | classUnclosed => "unclosed character class"
  | classEscape => "invalid escape sequence found in character class"
  | rangeBound => "invalid range boundary, must be a literal"
  | rangeOrder => "invalid character class range, the start must be <= the end"
  | escapeEnds => "incomplete escape sequence, reached end of pattern prematurely"
  | escapeUnknown => "unrecognized escape sequence"
  | hexDigit => "invalid hexadecimal digit"
  | hexValue => "hexadecimal literal is not a Unicode scalar value"
  | backreference => "backreferences are not supported"
  | boundOpen =>
    "found either the beginning of a special word boundary or a bounded repetition on a \\b " ++
      "with an opening brace, but no closing brace"
  | boundUnclosed =>
    "special word boundary assertion is either unclosed or contains an invalid character"
  | propertyInvalid => "invalid Unicode character class"
  | propertyUnknown => "Unicode property not found"
  | unicodeExcluded => "Unicode not allowed here"
  | invalidBytes => "pattern can match invalid UTF-8"

/-- A part of a pattern: the place of its first character, and the place behind its last one. -/
abbrev Part := Nat × Nat

/-- Why a text is no pattern that can be used. -/
inductive Flaw where
  /-- Some parts are wrong; a part that repeats another one comes behind it. -/
  | malformed (wrong : Wrong) (parts : List Part)
  /-- It asks for the bounds of words in all scripts. -/
  | wordBound
deriving DecidableEq, Repr

def fail {α : Type} (wrong : Wrong) (part : Part) : Except Flaw α := .error (.malformed wrong [part])

/-- What remains of a pattern, and how many characters lie before it. -/
structure Spot where
  rest : List Char
  place : Nat

namespace Spot

def skip (s : Spot) (n : Nat) : Spot := ⟨s.rest.drop n, s.place + n⟩

/-- The next character as a part. -/
def here (s : Spot) : Part := (s.place, s.place + 1)

/-- The gap in front of the next character as a part. -/
def gap (s : Spot) : Part := (s.place, s.place)

/-- How many characters are blanks and comments. A comment runs to the end of its line. -/
def ignored (inComment : Bool) : List Char → Nat
  | [] => 0
  | c :: rest =>
    if inComment then 1 + ignored (c != '\n') rest
    else if isBlank c then 1 + ignored false rest
    else if c == '#' then 1 + ignored true rest
    else 0

end Spot

structure Mode where
  /-- Blanks and comments do not count. -/
  spaced : Bool := false
  /-- Classes and bounds are those of all scripts. -/
  unicode : Bool := true

/-- Passes what does not count. -/
def Mode.pass (mode : Mode) (s : Spot) : Spot :=
  if mode.spaced then s.skip (Spot.ignored false s.rest) else s

/-- Passes characters that satisfy `p`, and what does not count behind each of them. -/
def Mode.passWhile (mode : Mode) (p : Char → Bool) : Nat → Spot → Spot
  | 0, s => s
  | steps + 1, s => if s.rest.head?.any p then mode.passWhile p steps (mode.pass (s.skip 1)) else s

/-- What stands for one character, or for a place between characters. -/
inductive Item where
  | literal (c : Char)
  | set
  | assertion
deriving DecidableEq, Repr

/-- A flaw that counts only if no part is malformed. -/
abbrev Doubt := Option Flaw

def isMeta (c : Char) : Bool :=
  ("\\.+*?()|[]^$#&-~".toList ++ ['\x7b', '\x7d']).contains c

def isEscapable (c : Char) : Bool :=
  isMeta c || (c.toNat < 0x80 && !c.isAlphanum && c != '<' && c != '>')

def isHexDigit (c : Char) : Bool := (hexValue? [c]).isSome

def readHex (mode : Mode) : Nat → List Char → Spot → Except Flaw (List Char × Spot)
  | 0, read, s => .ok (read.reverse, s)
  | digits + 1, read, s =>
    match s.rest with
    | [] => fail .escapeEnds s.gap
    | c :: _ =>
      if isHexDigit c then readHex mode digits (c :: read) (mode.pass (s.skip 1))
      else fail .hexDigit s.here

/-- Reads a character by its number, from the digits on. No number between braces ends here,
because no closing brace is left. -/
def readNumber (mode : Mode) (digits : Nat) (s : Spot) : Except Flaw (Item × Spot) := do
  match s.rest with
  | '\x7b' :: _ =>
    let behind := mode.passWhile isHexDigit s.rest.length (mode.pass (s.skip 1))
    if behind.rest.isEmpty then fail .escapeEnds (s.place, behind.place)
    else fail .hexDigit behind.here
  | _ =>
    let (read, behind) ← readHex mode digits [] s
    match hexValue? read with
    | some value =>
      if value.isValidChar then return (.literal (Char.ofNat value), behind)
      else fail .hexValue (s.place, behind.place)
    | none => fail .hexValue (s.place, behind.place)

/-- Reads a class of characters by a property, from the name of the property on. One letter names
a group of categories; a name between braces does not end here. -/
def readProperty (mode : Mode) (start : Nat) (s : Spot) :
    Except Flaw (Item × Doubt × Spot) := do
  match s.rest with
  | [] => fail .escapeEnds s.gap
  | '\x7b' :: _ => fail .escapeEnds (s.skip s.rest.length).gap
  | '\\' :: _ => fail .propertyInvalid s.here
  | c :: _ =>
    let behind := mode.pass (s.skip 1)
    let part := (start, behind.place)
    let doubt : Doubt :=
      if !mode.unicode then some (.malformed .unicodeExcluded [part])
      else if "CcLlMmNnPpSsZz".toList.contains c then none
      else some (.malformed .propertyUnknown [part])
    return (.set, doubt, behind)

/-- Looks at the brace behind the sign for the bound of a word. A name in it is never closed; all
else is taken for a count. -/
def checkBound (mode : Mode) (start : Nat) (brace : Spot) : Except Flaw Unit :=
  let isLetter : Char → Bool := fun c => c.isAlpha || c == '-'
  let s := mode.pass (brace.skip 1)
  if s.rest.isEmpty then fail .boundOpen (start, s.place)
  else if s.rest.head?.any isLetter then
    fail .boundUnclosed (brace.place, (mode.passWhile isLetter s.rest.length s).place)
  else .ok ()

def readEscape (mode : Mode) (start : Spot) : Except Flaw (Item × Doubt × Spot) := do
  let s := start.skip 1
  let behind := s.skip 1
  let part := (start.place, behind.place)
  match s.rest with
  | [] => fail .escapeEnds (start.place, s.place)
  | c :: rest =>
    if c.isDigit then fail .backreference part
    else if c == 'x' || c == 'u' || c == 'U' then
      let digits := if c == 'x' then 2 else if c == 'u' then 4 else 8
      let (item, behind) ← readNumber mode digits (mode.pass behind)
      return (item, none, behind)
    else if c == 'p' || c == 'P' then readProperty mode start.place (mode.pass behind)
    else if "dsw".toList.contains c then return (.set, none, behind)
    else if "DSW".toList.contains c then
      let doubt := if mode.unicode then none else some (.malformed .invalidBytes [part])
      return (.set, doubt, behind)
    else if isEscapable c || "afnrtv".toList.contains c then return (.literal c, none, behind)
    else if c == 'A' || c == 'z' then return (.assertion, none, behind)
    else if "bB<>".toList.contains c then
      if c == 'b' && rest.head? == some '\x7b' then checkBound mode start.place behind
      return (.assertion, if mode.unicode then some .wordBound else none, behind)
    else fail .escapeUnknown part

/-- The earlier one of two doubts. -/
def Doubt.or (first second : Doubt) : Doubt :=
  match first with
  | some flaw => some flaw
  | none => second

/-- The names of the classes that stand between colons. -/
def namedClasses : List String :=
  ["alnum", "alpha", "ascii", "blank", "cntrl", "digit", "graph", "lower", "print", "punct",
    "space", "upper", "word", "xdigit"]

/-- The length of a named class at the start of a text, if there is one. -/
def namedClassLength? (cs : List Char) : Option Nat :=
  match cs with
  | '[' :: ':' :: rest =>
    let sign := if rest.head? == some '^' then 1 else 0
    let name := (rest.drop sign).takeWhile (· != ':')
    if ((rest.drop (sign + name.length)).take 2 == [':', ']']) &&
        namedClasses.contains (String.ofList name) then
      some (name.length + sign + 4)
    else none
  | _ => none

/-- Reads the start of a class: its bracket, a negation, and characters that cannot be anything
else yet. -/
def readClassStart (mode : Mode) (start : Spot) : Except Flaw (Bool × Spot) := do
  let s := mode.pass (start.skip 1)
  let whole (s : Spot) : Part := (start.place, s.place)
  if s.rest.isEmpty then fail .classUnclosed (whole s)
  let negated := s.rest.head? == some '^'
  let s := if negated then mode.pass (s.skip 1) else s
  if s.rest.isEmpty then fail .classUnclosed (whole s)
  let hyphens := mode.passWhile (· == '-') s.rest.length s
  if hyphens.rest.isEmpty then fail .classUnclosed start.gap
  if hyphens.place == s.place && s.rest.head? == some ']' then
    let s := mode.pass (s.skip 1)
    if s.rest.isEmpty then fail .classUnclosed (whole s)
    return (negated, s)
  return (negated, hyphens)

def readMember (mode : Mode) (s : Spot) : Except Flaw (Item × Doubt × Spot) :=
  match s.rest with
  | '\\' :: _ => readEscape mode s
  | c :: _ => .ok (.literal c, none, s.skip 1)
  | [] => fail .classUnclosed s.gap

/-- Reads one member of a class or a range. `unclosed` is the part that is not closed if the
pattern ends here. -/
def readRange (mode : Mode) (unclosed : Part) (s : Spot) : Except Flaw (Doubt × Spot) := do
  let (first, doubt, behind) ← readMember mode s
  let hyphen := mode.pass behind
  if hyphen.rest.isEmpty then fail .classUnclosed unclosed
  let second := mode.pass (hyphen.skip 1)
  let next := second.rest.head?
  if hyphen.rest.head? != some '-' || next == some ']' || next == some '-' then
    if first == .assertion then fail .classEscape (s.place, behind.place)
    return (doubt, hyphen)
  if second.rest.isEmpty then fail .classUnclosed unclosed
  let (last, _, lastBehind) ← readMember mode second
  match first, last with
  | .literal low, .literal high =>
    if low ≤ high then return (doubt, lastBehind)
    else fail .rangeOrder (s.place, lastBehind.place)
  | .literal _, _ => fail .rangeBound (second.place, lastBehind.place)
  | _, _ => fail .rangeBound (s.place, behind.place)

/-- Reads a class to its closing bracket. `opened` holds the starts of the classes that are open,
innermost first. -/
def readClass (mode : Mode) : Nat → List Part → Doubt → Spot → Except Flaw (Doubt × Spot)
  | 0, _, doubt, s => .ok (doubt, s)
  | steps + 1, opened, doubt, s => do
    let s := mode.pass s
    let unclosed := opened.headD s.gap
    match s.rest with
    | [] => fail .classUnclosed unclosed
    | '[' :: _ =>
      match if opened.isEmpty then none else namedClassLength? s.rest with
      | some length => readClass mode steps opened doubt (s.skip length)
      | none =>
        let (negated, behind) ← readClassStart mode s
        let part := (s.place, behind.place)
        let doubt := doubt.or
          (if negated && !mode.unicode then some (.malformed .invalidBytes [part]) else none)
        readClass mode steps (part :: opened) doubt behind
    | ']' :: _ =>
      if opened.length ≤ 1 then return (doubt, s.skip 1)
      else readClass mode steps opened.tail doubt (s.skip 1)
    | '&' :: '&' :: _ | '-' :: '-' :: _ | '~' :: '~' :: _ =>
      readClass mode steps opened doubt (s.skip 2)
    | _ =>
      let (found, behind) ← readRange mode unclosed s
      readClass mode steps opened (doubt.or found) behind

structure Flags where
  items : List (Char × Nat) := []
  negated : Bool := false
  mode : Mode

def readFlags : Nat → Flags → Spot → Except Flaw (Flags × Spot)
  | 0, flags, s => .ok (flags, s)
  | steps + 1, flags, s =>
    match s.rest with
    | [] => fail .flagExpected s.gap
    | c :: _ =>
      let dangling := match flags.items with
        | ('-', place) :: _ => some (place, place + 1)
        | _ => none
      if c == ':' || c == ')' then
        match dangling with
        | some part => fail .negationDangling part
        | none => .ok (flags, s)
      else if c != '-' && !"imsUuRx".toList.contains c then fail .flagUnknown s.here
      else match flags.items.lookup c with
      | some place =>
        .error (.malformed (if c == '-' then .negationRepeated else .flagRepeated)
          [(place, place + 1), s.here])
      | none =>
        let mode := flags.mode
        let mode := if c == 'x' then { mode with spaced := !flags.negated }
          else if c == 'u' then { mode with unicode := !flags.negated } else mode
        readFlags steps
          { items := (c, s.place) :: flags.items, negated := flags.negated || c == '-', mode }
          (s.skip 1)

def isNameChar (first : Bool) (c : Char) : Bool :=
  c == '_' || (isAlphanumeric c && !(first && c.isDigit)) ||
  (!first && (c == '.' || c == '[' || c == ']'))

def readName (s : Spot) : Except Flaw (String × Part × Spot) :=
  let name := s.rest.takeWhile (· != '>')
  let bad := name.zipIdx.find? fun entry => !isNameChar (entry.2 == 0) entry.1
  let behind := s.skip name.length
  match bad with
  | some (_, i) => fail .nameInvalid (s.skip i).here
  | none =>
    if behind.rest.isEmpty then fail .nameUnclosed behind.gap
    else if name.isEmpty then fail .nameEmpty s.gap
    else .ok (String.ofList name, (s.place, behind.place), behind.skip 1)

/-- A pattern that is being read. -/
structure Reading where
  spot : Spot
  mode : Mode := {}
  /-- Where the open groups start, with the mode outside of them, innermost first. -/
  groups : List (Nat × Mode) := []
  names : List (String × Part) := []
  /-- What stands before this place can be repeated. -/
  repeatable : Bool := false
  doubt : Doubt := none

namespace Reading

/-- Reads the start of a group, or flags for the rest of the group around them. -/
def openGroup (r : Reading) : Except Flaw Reading := do
  let start := r.spot
  let s := r.mode.pass (start.skip 1)
  let within (mode : Mode) (s : Spot) : Reading :=
    { r with spot := s, mode, groups := (start.place, r.mode) :: r.groups, repeatable := false }
  let named (s : Spot) : Except Flaw Reading := do
    let (name, part, behind) ← readName s
    match r.names.lookup name with
    | some earlier => throw (.malformed .nameRepeated [earlier, part])
    | none => return { within r.mode behind with names := (name, part) :: r.names }
  match s.rest with
  | '?' :: '=' :: _ | '?' :: '!' :: _ =>
    fail .lookAround (start.place, s.place + 2)
  | '?' :: '<' :: '=' :: _ | '?' :: '<' :: '!' :: _ =>
    fail .lookAround (start.place, s.place + 3)
  | '?' :: 'P' :: '<' :: _ => named (s.skip 3)
  | '?' :: '<' :: _ => named (s.skip 2)
  | '?' :: rest =>
    if rest.isEmpty then fail .groupUnclosed start.here
    let (flags, behind) ← readFlags (rest.length + 1) { mode := r.mode } (s.skip 1)
    if behind.rest.head? == some ':' then return within flags.mode (behind.skip 1)
    if flags.items.isEmpty then fail .repetitionMissing s.gap
    return { r with spot := behind.skip 1, mode := flags.mode, repeatable := false }
  | _ => return within r.mode s

/-- Reads the end of a group, which can be repeated as a whole. -/
def closeGroup (r : Reading) : Except Flaw Reading :=
  match r.groups with
  | [] => fail .groupUnopened r.spot.here
  | (_, mode) :: groups =>
    .ok { r with spot := r.spot.skip 1, mode, groups, repeatable := true }

/-- Reads a count behind its opening brace, which is never closed. -/
def openCount (r : Reading) : Except Flaw Reading :=
  let s := r.mode.pass (r.spot.skip 1)
  let start := s.skip (s.rest.takeWhile isBlank).length
  let digits := r.mode.passWhile Char.isDigit start.rest.length start
  let behind := r.mode.passWhile isBlank digits.rest.length digits
  if !behind.rest.isEmpty && digits.place == start.place then fail .countEmpty start.gap
  else fail .countUnclosed (r.spot.place, behind.place)

def step (r : Reading) (c : Char) : Except Flaw Reading := do
  let s := r.spot
  if c == '(' then r.openGroup
  else if c == ')' then r.closeGroup
  else if c == '|' then return { r with spot := s.skip 1, repeatable := false }
  else if c == '[' then
    let (doubt, behind) ← readClass r.mode (2 * s.rest.length) [] r.doubt s
    return { r with spot := behind, repeatable := true, doubt }
  else if c == '?' || c == '*' || c == '+' || c == '\x7b' then
    if !r.repeatable then fail .repetitionMissing s.gap
    if c == '\x7b' then r.openCount
    else
      let behind := s.skip 1
      return { r with spot := if behind.rest.head? == some '?' then behind.skip 1 else behind }
  else if c == '\\' then
    let (_, doubt, behind) ← readEscape r.mode s
    return { r with spot := behind, repeatable := true, doubt := r.doubt.or doubt }
  else
    let doubt :=
      if c == '.' && !r.mode.unicode then some (.malformed .invalidBytes [s.here]) else none
    return { r with spot := s.skip 1, repeatable := true, doubt := r.doubt.or doubt }

def readAll : Nat → Reading → Except Flaw Reading
  | 0, r => .ok r
  | steps + 1, r => do
    let r := { r with spot := r.mode.pass r.spot }
    match r.spot.rest, r.groups with
    | [], [] => return r
    | [], (start, _) :: _ => fail .groupUnclosed (start, start + 1)
    | c :: _, _ => readAll steps (← r.step c)

end Reading

/-- What keeps a text from being a pattern, if anything does. -/
def flaw? (text : String) : Option Flaw :=
  match Reading.readAll (text.length + 1) { spot := ⟨text.toList, 0⟩ } with
  | .error flaw => some flaw
  | .ok r => r.doubt

/-- Marks below a line that show which parts of it are meant. -/
def marks (parts : List Part) : String :=
  let line := parts.foldl (fun (line : List Char) part =>
    line ++ List.replicate (part.1 - line.length) ' ' ++
      List.replicate (max 1 (part.2 - part.1)) '^') []
  String.ofList line

/-- What is said about a flaw of a text, from the outside in. -/
def Flaw.causes (text : String) : Flaw → List String
  | .malformed wrong parts =>
    ["error building NFA", "error parsing regex",
      "regex parse error:\n    " ++ text ++ "\n    " ++ marks parts ++ "\nerror: " ++ wrong.text]
  | .wordBound =>
    ["unsupported regex feature for DFAs: cannot build DFAs for regexes with Unicode word " ++
      "boundaries; switch to ASCII word boundaries, or heuristically enable Unicode word " ++
      "boundaries or use a different regex engine"]

end HedgedStore.Text.Pattern
