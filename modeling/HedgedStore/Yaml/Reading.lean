import HedgedStore.Number.Decimal
import HedgedStore.Text.Quoted
import HedgedStore.Yaml.Node

/-! Reading typed values from nodes: texts, booleans, whole numbers, values that may be absent.
A text is any scalar as it was written. All other types ask for a plain scalar, or for a literal
one with the tag of the type. -/
namespace HedgedStore.Yaml

/-- What a node looks like to somebody who asked for something else. -/
inductive Found where
  | unit
  | boolean (b : Bool)
  | integer (n : Int)
  /-- An integer beyond sixty-four bits. -/
  | wideInteger (n : Int)
  | number (x : Binary64)
  | text (s : String)
  | sequence
  | mapping
deriving DecidableEq, Repr

inductive Expected where
  | boolean
  | word64
  | word32
  | text
  | record (name : String)
  | fieldName
  /-- A scalar whose tag says so is a boolean, an integer, a float or null. -/
  | tagged (kind : String)
deriving DecidableEq, Repr

inductive Problem where
  | wrongType (found : Found) (expected : Expected)
  | wrongValue (found : Found) (expected : Expected)
  | missingField (name : String)
  | duplicateField (name : String)
deriving DecidableEq, Repr

/-- A step from a mapping to one of its values: by a key as written, or by one given elsewhere. -/
inductive Step where
  | field (name : String)
  | unnamed
deriving DecidableEq, Repr

/-- A problem, and where in the document it lies. -/
structure Mismatch where
  path : List Step
  problem : Problem
deriving DecidableEq, Repr

def Found.phrase : Found → String
  | unit => "unit value"
  | boolean b => "boolean " ++ tick ++ (if b then "true" else "false") ++ tick
  | integer n => "integer " ++ tick ++ toString n ++ tick
  | wideInteger n =>
    "integer " ++ tick ++ toString n ++ tick ++ (if n < 0 then " as i128" else " as u128")
  | number x => "floating point " ++ tick ++ x.textWithPoint ++ tick
  | text s => "string " ++ Text.quote s
  | sequence => "sequence"
  | mapping => "map"
where
  tick : String := "\x60"

def Expected.phrase : Expected → String
  | boolean => "a boolean"
  | word64 => "u64"
  | word32 => "u32"
  | text => "a string"
  | record name => "struct " ++ name
  | fieldName => "field identifier"
  | tagged kind => kind

def Problem.phrase : Problem → String
  | wrongType found expected =>
    "invalid type: " ++ found.phrase ++ ", expected " ++ expected.phrase
  | wrongValue found expected =>
    "invalid value: " ++ found.phrase ++ ", expected " ++ expected.phrase
  | missingField name => "missing field \x60" ++ name ++ "\x60"
  | duplicateField name => "duplicate field \x60" ++ name ++ "\x60"

def Step.phrase : Step → String
  | field name => name
  | unnamed => "?"

def Mismatch.message (m : Mismatch) : String :=
  if m.path.isEmpty then m.problem.phrase
  else ".".intercalate (m.path.map Step.phrase) ++ ": " ++ m.problem.phrase

/-! The forms of plain scalars. -/

def isNull (s : String) : Bool := s == "~" || s == "null" || s == "Null" || s == "NULL"

def readBool? (s : String) : Option Bool :=
  if s == "true" || s == "True" || s == "TRUE" then some true
  else if s == "false" || s == "False" || s == "FALSE" then some false
  else none

def digitValue? (base : Nat) (c : Char) : Option Nat :=
  let value :=
    if c.isDigit then c.toNat - '0'.toNat
    else if 'a' ≤ c && c ≤ 'z' then c.toNat - 'a'.toNat + 10
    else if 'A' ≤ c && c ≤ 'Z' then c.toNat - 'A'.toNat + 10
    else base
  if value < base then some value else none

/-- The value of a run of digits that is not empty. -/
def readDigits? (base : Nat) (cs : List Char) : Option Nat :=
  if cs.isEmpty then none
  else cs.foldl (fun value c => value.bind fun n => (digitValue? base c).map (base * n + ·)) (some 0)

/-- Digits after a needless zero, which are no number. -/
def hasLeadingZero : List Char → Bool
  | '0' :: rest => !rest.isEmpty && rest.all Char.isDigit
  | _ => false

/-- Reads digits in the base that their first two characters tell. -/
def readBased? : List Char → Option Nat
  | '0' :: 'x' :: digits => readDigits? 16 digits
  | '0' :: 'o' :: digits => readDigits? 8 digits
  | '0' :: 'b' :: digits => readDigits? 2 digits
  | digits => if hasLeadingZero digits then none else readDigits? 10 digits

/-- Reads a whole number without a minus sign. -/
def readNat? (s : String) : Option Nat :=
  match s.toList with
  | '+' :: digits => readBased? digits
  | digits => readBased? digits

/-- Reads a whole number: unsigned, or behind a minus sign. -/
def readInt? (s : String) : Option Int :=
  match s.toList with
  | '-' :: digits => (readBased? digits).map fun n => -(n : Int)
  | _ => (readNat? s).map Int.ofNat

/-- Reads a number with a fraction or an exponent, or one of the names of infinity and NaN. -/
def readFloat? (s : String) : Option Binary64 :=
  let unsigned := match s.toList with
    | '+' :: '+' :: _ | '+' :: '-' :: _ => none
    | '+' :: rest => some (String.ofList rest)
    | _ => some s
  unsigned.bind fun unsigned =>
    if unsigned == ".inf" || unsigned == ".Inf" || unsigned == ".INF" then some .infinity
    else if s == "-.inf" || s == "-.Inf" || s == "-.INF" then some Binary64.infinity.negate
    else if s == ".nan" || s == ".NaN" || s == ".NAN" then some .nan
    else (Binary64.ofText? unsigned).filter (·.isFinite)

/-- An integer as far as it can be told: within 64 bits, within 128 bits, or not at all. -/
def Found.ofInt? (n : Int) : Option Found :=
  if -0x8000000000000000 ≤ n ∧ n < 0x10000000000000000 then some (.integer n)
  else if -(0x8000000000000000 * 0x10000000000000000) ≤ n ∧
      n < 0x10000000000000000 * 0x10000000000000000 then
    some (.wideInteger n)
  else none

def Found.ofIntText? (s : String) : Option Found := (readInt? s).bind Found.ofInt?

/-- What a plain scalar without a tag looks like. -/
def Found.ofPlain (s : String) : Found :=
  if s.isEmpty || isNull s then .unit
  else match readBool? s, Found.ofIntText? s with
  | some b, _ => .boolean b
  | none, some found => found
  | none, none =>
    let digits := match s.toList with
      | '-' :: rest | '+' :: rest => rest
      | cs => cs
    match if hasLeadingZero digits then none else readFloat? s with
    | some x => .number x
    | none => .text s

def boolTag : String := "tag:yaml.org,2002:bool"
def intTag : String := "tag:yaml.org,2002:int"
def floatTag : String := "tag:yaml.org,2002:float"
def nullTag : String := "tag:yaml.org,2002:null"

/-- The complaint about a scalar where `expected` was asked for. A tag that contradicts its text
is the graver complaint. -/
def Scalar.complaint (s : Scalar) (expected : Expected) : Problem :=
  let told (found : Option Found) (kind : String) : Problem :=
    match found with
    | some found => .wrongType found expected
    | none => .wrongValue (.text s.text) (.tagged kind)
  match s.tag with
  | none => .wrongType (if s.style == .plain then .ofPlain s.text else .text s.text) expected
  | some tag =>
    if tag == boolTag then told ((readBool? s.text).map .boolean) "a boolean"
    else if tag == intTag then told (Found.ofIntText? s.text) "an integer"
    else if tag == floatTag then told ((readFloat? s.text).map .number) "a float"
    else if tag == nullTag then told (if isNull s.text then some .unit else none) "null"
    else if tag.startsWith "!" && s.style == .plain then .wrongType (.ofPlain s.text) expected
    else .wrongType (.text s.text) expected

def Node.complaint (node : Node) (expected : Expected) : Problem :=
  match node with
  | .scalar _ s => s.complaint expected
  | .sequence _ _ => .wrongType .sequence expected
  | .mapping _ _ => .wrongType .mapping expected
  | .reference _ => .wrongType .unit expected

/-- Whether a scalar is read for its form: plain, or literal with the tag of the type. -/
def Scalar.hasForm (s : Scalar) (tag : String) : Bool :=
  s.style == .plain || (s.style == .literal && s.tag == some tag)

/-- A place in a document: a node and the way to it. -/
structure Place where
  /-- The root of the document, where aliases point. -/
  root : Node
  path : List Step
  node : Node

namespace Place

/-- The node of a place, behind an alias. -/
def target (p : Place) : Node := (p.root.resolve p.node).getD p.node

def fail (p : Place) (problem : Problem) : Except Mismatch α := .error ⟨p.path, problem⟩

def complain (p : Place) (expected : Expected) : Except Mismatch α :=
  p.fail (p.target.complaint expected)

def readForm (p : Place) (tag : String) (read : String → Option α) (expected : Expected) :
    Except Mismatch α :=
  match p.target with
  | .scalar _ s =>
    match if s.hasForm tag then read s.text else none with
    | some value => .ok value
    | none => p.complain expected
  | _ => p.complain expected

def text (p : Place) : Except Mismatch String :=
  match p.target with
  | .scalar _ s => .ok s.text
  | _ => p.complain .text

def bool (p : Place) : Except Mismatch Bool := p.readForm boolTag readBool? .boolean

/-- Reads an unsigned integer of sixty-four bits on behalf of someone who expects `expected`. -/
def word (p : Place) (expected : Expected) : Except Mismatch UInt64 :=
  p.readForm intTag (fun s => (readNat? s).bind fun n =>
    if n < 0x10000000000000000 then some n.toUInt64 else none) expected

def word64 (p : Place) : Except Mismatch UInt64 := p.word .word64

def word32 (p : Place) : Except Mismatch UInt32 := do
  let n ← p.word .word32
  if n < 0x100000000 then return n.toUInt32
  else p.fail (.wrongValue (.integer n.toNat) .word32)

/-- Reads a value unless it is absent: left out or null. A null tag on something else is a
problem of the mapping around it. -/
def option (read : Place → Except Mismatch α) (p : Place) : Except Mismatch (Option α) :=
  let present := (read p).map some
  match p.target with
  | .scalar _ s =>
    if s.style != .plain then present
    else match s.tag with
    | none => if s.text.isEmpty || isNull s.text then .ok none else present
    | some tag =>
      if tag != nullTag then present
      else if isNull s.text then .ok none
      else .error ⟨p.path.dropLast, .wrongValue (.text s.text) (.tagged "null")⟩
  | _ => present

/-- The entries of a mapping, and of a place where nothing is written. -/
def entries (p : Place) (name : String) : Except Mismatch (List (Node × Node)) :=
  match p.target with
  | .mapping _ entries => .ok entries
  | .scalar _ s =>
    if s.text.isEmpty && s.style == .plain then .ok [] else p.complain (.record name)
  | _ => p.complain (.record name)

/-- Reads one entry of a mapping into a record: a field at most once, anything unknown not at
all. -/
def readEntry (p : Place) (fieldOf : String → Option φ) (has : ρ → φ → Bool)
    (read : ρ → φ → Place → Except Mismatch ρ) (record : ρ) (entry : Node × Node) :
    Except Mismatch ρ := do
  let name ← match ({ p with node := entry.1 } : Place).target with
    | .scalar _ s => pure s.text
    | other => p.fail (other.complaint .fieldName)
  match fieldOf name with
  | none => return record
  | some field =>
    if has record field then p.fail (.duplicateField name)
    else
      let step := match entry.1 with
        | .scalar _ _ => Step.field name
        | _ => Step.unnamed
      read record field { p with path := p.path ++ [step], node := entry.2 }

/-- Reads a mapping into a record, entry by entry in the order of the document. -/
def readRecord (p : Place) (recordName : String) (fieldOf : String → Option φ)
    (has : ρ → φ → Bool) (read : ρ → φ → Place → Except Mismatch ρ) (blank : ρ) :
    Except Mismatch ρ := do
  (← p.entries recordName).foldlM (p.readEntry fieldOf has read) blank

/-- A field that a record cannot do without. -/
def require (p : Place) (name : String) : Option α → Except Mismatch α
  | some value => .ok value
  | none => p.fail (.missingField name)

end Place

end HedgedStore.Yaml
