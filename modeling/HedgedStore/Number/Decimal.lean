import HedgedStore.Number.Binary64

/-! Decimal text of binary64 numbers: written with the fewest digits that read back as the same
number, always positionally, and read with one rounding. -/
namespace HedgedStore.Binary64

/-- A decimal `digits * 10 ^ exponent`. -/
structure Decimal where
  digits : Nat
  exponent : Int
deriving DecidableEq, Repr

/-- Compares `a * 10 ^ i` with `b * 2 ^ j` exactly. -/
def compareScaled (a : Nat) (i : Int) (b : Nat) (j : Int) : Ordering :=
  compare (a * Nat.pow 10 i.toNat * Nat.pow 2 (-j).toNat)
    (b * Nat.pow 2 j.toNat * Nat.pow 10 (-i).toNat)

/-- Below a power of two the numbers lie twice as dense as above it. -/
def isNarrowBelow (x : Binary64) : Bool :=
  x.magnitude % 0x10000000000000 == 0 && x.magnitude ≥ 0x20000000000000

/-- The decimal rounds to the magnitude of `x`: it lies within half a gap of it on either side,
the bounds included when the significand is even. -/
def readsBack (x : Binary64) (d : Decimal) : Bool :=
  let low := if x.isNarrowBelow then 4 * x.significand - 1 else 4 * x.significand - 2
  let high := 4 * x.significand + 2
  let closed := x.significand % 2 == 0
  let below := compareScaled d.digits d.exponent low (x.exponent - 2)
  let above := compareScaled d.digits d.exponent high (x.exponent - 2)
  (below == .gt || (closed && below == .eq)) && (above == .lt || (closed && above == .eq))

/-- The magnitude in units of `10 ^ place`, rounded down. -/
def unitsBelow (x : Binary64) (place : Int) : Nat :=
  (x.significand * Nat.pow 2 x.exponent.toNat * Nat.pow 10 (-place).toNat) /
    (Nat.pow 2 (-x.exponent).toNat * Nat.pow 10 place.toNat)

/-- The better of the two neighbours of `x` among the multiples of `10 ^ place`, if one of them
reads back: the nearer one, and the upper one when both are equally near. -/
def onGrid (x : Binary64) (place : Int) : Option Decimal :=
  let low : Decimal := ⟨x.unitsBelow place, place⟩
  let high : Decimal := ⟨low.digits + 1, place⟩
  match x.readsBack low, x.readsBack high with
  | false, false => none
  | true, false => some low
  | false, true => some high
  | true, true =>
    match compareScaled (2 * low.digits + 1) place x.significand (x.exponent + 1) with
    | .gt => some low
    | _ => some high

/-- The least place such that the magnitude is below `10 ^ place`, searched upwards. -/
def placeAbove (x : Binary64) : Nat → Int → Int
  | 0, place => place
  | steps + 1, place =>
    if compareScaled 1 place x.significand x.exponent == .gt then place
    else placeAbove x steps (place + 1)

/-- The first grid with a decimal that reads back, from coarse to fine. -/
def firstOnGrid (x : Binary64) : Nat → Int → Option Decimal
  | 0, _ => none
  | steps + 1, place =>
    match x.onGrid place with
    | some d => some d
    | none => firstOnGrid x steps (place - 1)

/-- A lower estimate of `placeAbove`, from the length of the significand in bits. -/
def placeEstimate (x : Binary64) : Int :=
  Int.fdiv ((x.significand.log2 + x.exponent) * 30103) 100000 - 1

/-- The shortest decimal that reads back as the magnitude of a finite number. -/
def shortest (x : Binary64) : Decimal :=
  if x.significand = 0 then ⟨0, 0⟩
  else
    let place := x.placeAbove 8 x.placeEstimate
    (x.firstOnGrid 17 (place - 1)).getD
      ⟨x.significand * Nat.pow 5 (-x.exponent).toNat * Nat.pow 2 x.exponent.toNat,
        min x.exponent 0⟩

/-- A decimal without an exponent and without needless zeros after the point. -/
def Decimal.positional (d : Decimal) : String :=
  if d.digits = 0 then "0"
  else
    let digits := (Nat.toDigits 10 d.digits)
    let trailing := if d.exponent < 0 then (digits.reverse.takeWhile (· == '0')).length else 0
    let dropped := min trailing (-d.exponent).toNat
    let digits := digits.take (digits.length - dropped)
    let places := (-d.exponent).toNat - dropped
    if d.exponent ≥ 0 then String.ofList (digits ++ List.replicate d.exponent.toNat '0')
    else if places = 0 then String.ofList digits
    else if digits.length > places then
      String.ofList (digits.take (digits.length - places) ++ '.' ::
        digits.drop (digits.length - places))
    else String.ofList ('0' :: '.' :: List.replicate (places - digits.length) '0' ++ digits)

def text (x : Binary64) : String :=
  if x.isNaN then "NaN"
  else
    let sign := if x.isNegative then "-" else ""
    sign ++ (if x.isFinite then x.shortest.positional else "inf")

/-- The text of a number that always shows a point when the number is finite. -/
def textWithPoint (x : Binary64) : String :=
  if x.isFinite && !x.text.toList.contains '.' then x.text ++ ".0" else x.text

/-- The binary64 number nearest to `digits * 10 ^ exponent`. Beyond the ends of the range the
answer is known without the power of ten. -/
def ofDecimal (d : Decimal) : Binary64 :=
  if d.digits = 0 then zero
  else
    let place := (Nat.toDigits 10 d.digits).length + d.exponent
    if place > 310 then infinity
    else if place < -330 then zero
    else ofFloat (Float.ofScientific d.digits (d.exponent < 0) d.exponent.natAbs)

def digitsValue (cs : List Char) : Nat :=
  cs.foldl (fun n c => 10 * n + (c.toNat - '0'.toNat)) 0

/-- Reads the exponent that may follow the digits: nothing, or a mark, a sign and digits. -/
def readExponent? : List Char → Option Int
  | [] => some 0
  | mark :: rest =>
    if mark != 'e' && mark != 'E' then none
    else
      let (negative, digits) := match rest with
        | '-' :: digits => (true, digits)
        | '+' :: digits => (false, digits)
        | digits => (false, digits)
      if digits.isEmpty || !digits.all Char.isDigit then none
      else if negative then some (-(digitsValue digits : Int)) else some (digitsValue digits)

/-- Reads an unsigned decimal: digits with at most one point among, before or after them, and an
exponent. -/
def readMagnitude? (cs : List Char) : Option Binary64 :=
  let whole := cs.takeWhile Char.isDigit
  let (fraction, rest) := match cs.dropWhile Char.isDigit with
    | '.' :: rest => (rest.takeWhile Char.isDigit, rest.dropWhile Char.isDigit)
    | rest => ([], rest)
  if whole.isEmpty && fraction.isEmpty then none
  else (readExponent? rest).map fun exponent =>
    ofDecimal ⟨digitsValue (whole ++ fraction), exponent - fraction.length⟩

/-- Reads a finite decimal with an optional sign. -/
def ofText? (s : String) : Option Binary64 :=
  match s.toList with
  | '-' :: rest => (readMagnitude? rest).map negate
  | '+' :: rest => readMagnitude? rest
  | rest => readMagnitude? rest

end HedgedStore.Binary64
