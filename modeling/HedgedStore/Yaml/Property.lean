import HedgedStore.Yaml.Scalar

/-! Reading what stands in front of a node, its anchor and its tag, and the directives that give
tags their meaning. -/
namespace HedgedStore.Yaml

/-- A character of a tag as written; one between angle brackets may hold separators too. -/
def isTagChar (verbatim : Bool) (c : Char) : Bool :=
  isWordChar c || ";/?:@&=+$.%!~*'()".toList.contains c ||
  (verbatim && (c == ',' || c == '[' || c == ']'))

def readOctet : List Char → Except Malformation Nat
  | '%' :: high :: low :: _ =>
    match Text.hexValue? [high, low] with
    | some octet => .ok octet
    | none => .error .malformedTag
  | _ => .error .malformedTag

/-- How many octets a character takes whose first octet is given, and the bits that this octet
contributes. -/
def octetLead (octet : Nat) : Option (Nat × Nat) :=
  if octet < 0x80 then some (1, octet)
  else if 0xc0 ≤ octet && octet < 0xe0 then some (2, octet - 0xc0)
  else if 0xe0 ≤ octet && octet < 0xf0 then some (3, octet - 0xe0)
  else if 0xf0 ≤ octet && octet < 0xf8 then some (4, octet - 0xf0)
  else none

def readContinuation : Nat → Nat → List Char → Except Malformation Nat
  | 0, value, _ => .ok value
  | more + 1, value, cs => do
    let octet ← readOctet cs
    if octet / 64 == 2 then readContinuation more (64 * value + octet % 64) (cs.drop 3)
    else throw .malformedTag

/-- The character of a value that was written in `width` octets. A value that is no character, or
that takes fewer octets, stands for the replacement character. -/
def octetChar (width value : Nat) : Char :=
  let ch := Char.ofNat value
  if value.isValidChar && ch.utf8Size == width then ch else '\ufffd'

/-- Reads one escaped character of a tag: the character and the length of its escape. -/
def readTagEscape (cs : List Char) : Except Malformation (Char × Nat) := do
  let (width, lead) ← match octetLead (← readOctet cs) with
    | some found => pure found
    | none => throw .malformedTag
  let value ← readContinuation (width - 1) lead (cs.drop 3)
  return (octetChar width value, 3 * width)

/-- Reads the characters of a tag from here on. -/
def scanTagText (verbatim : Bool) : Nat → List Char → Cursor →
    Except Malformation (List Char × Cursor)
  | 0, read, c => .ok (read.reverse, c)
  | steps + 1, read, c =>
    match c.peek with
    | none => .ok (read.reverse, c)
    | some ch =>
      if ch == '%' then do
        let (decoded, length) ← readTagEscape c.rest
        scanTagText verbatim steps (decoded :: read) (c.skip length)
      else if isTagChar verbatim ch then scanTagText verbatim steps (ch :: read) (c.skip 1)
      else .ok (read.reverse, c)

def scanAnchor (c : Cursor) : Except Malformation (String × Cursor) :=
  let (name, c) := (c.skip 1).span isWordChar
  let ends := atWordEnd c.rest || c.peek.any ("?:,]\x7d%@".toList ++ [Char.ofNat 0x60]).contains
  if name.isEmpty || !ends then .error .malformedAnchor else .ok (String.ofList name, c)

/-- Reads the handle of a tag: an exclamation mark, or a word between two of them. -/
def scanTagHandle (c : Cursor) : Except Malformation (List Char × Cursor) :=
  if !c.at? '!' then .error .malformedTag
  else
    let (name, c) := (c.skip 1).span isWordChar
    if c.at? '!' then .ok ('!' :: name ++ ['!'], c.skip 1) else .ok ('!' :: name, c)

/-- Reads a tag: verbatim between angle brackets, or a handle with a suffix. A word behind a
single exclamation mark is the suffix of the primary handle; the mark alone is a tag too, also in
front of an escaped NUL, which ends what counts of a tag. -/
def scanTag (inFlow : Bool) (c : Cursor) : Except Malformation (Token × Cursor) := do
  let steps := c.total + 1
  let (token, c) ←
    if c.rest.take 2 == ['!', '<'] then do
      let (suffix, c) ← scanTagText true steps [] (c.skip 2)
      if suffix.isEmpty || !c.at? '>' then throw .malformedTag
      pure (Token.tag "" (String.ofList suffix), c.skip 1)
    else do
      let (handle, c) ← scanTagHandle c
      let (suffix, c) ← scanTagText false steps [] c
      if handle.length > 1 && handle.getLast? == some '!' then
        if suffix.isEmpty then throw .malformedTag
        pure (Token.tag (String.ofList handle) (String.ofList suffix), c)
      else
        let suffix := handle.drop 1 ++ suffix
        if suffix.head?.all (· == '\x00') then pure (Token.tag "" "!", c)
        else pure (Token.tag "!" (String.ofList suffix), c)
  if atWordEnd c.rest || (inFlow && c.at? ',') then return (token, c)
  else throw .malformedTag

def scanVersionNumber (c : Cursor) : Except Malformation (Nat × Cursor) :=
  let (digits, c) := c.span Char.isDigit
  if digits.isEmpty || digits.length > 9 then .error .malformedDirective
  else .ok (digits.foldl (fun n ch => 10 * n + (ch.toNat - '0'.toNat)) 0, c)

/-- Reads a directive from its percent sign to the end of its line. -/
def scanDirective (c : Cursor) : Except Malformation (Token × Cursor) := do
  let (name, c) := (c.skip 1).span isWordChar
  if name.isEmpty || !atWordEnd c.rest then throw .malformedDirective
  let c := c.skipWhile isGap
  let (token, c) ←
    if name == "YAML".toList then do
      let (major, c) ← scanVersionNumber c
      if !c.at? '.' then throw .malformedDirective
      let (minor, c) ← scanVersionNumber (c.skip 1)
      pure (Token.version major minor, c)
    else if name == "TAG".toList then do
      let (handle, c) ← scanTagHandle c
      if handle.length > 1 && handle.getLast? != some '!' then throw .malformedDirective
      if !c.peek.any isGap then throw .malformedDirective
      let (meaning, c) ← scanTagText true (c.total + 1) [] (c.skipWhile isGap)
      if meaning.isEmpty || !atWordEnd c.rest then throw .malformedDirective
      pure (Token.tagHandle (String.ofList handle) (String.ofList meaning), c)
    else throw .unknownDirective
  let c := (c.skipWhile isGap).skipComment
  if atLineEnd c.rest then return (token, c.skipBreak) else throw .malformedDirective

end HedgedStore.Yaml
