/-! Binary64 numbers by their encoding. A `Float` forgets the sign of a NaN, which the total
order needs, so the numbers that are kept, sorted and shown are held as the sixty-four bits. -/
namespace HedgedStore

/-- A binary64 number, each NaN told from every other. -/
structure Binary64 where
  bits : UInt64
deriving DecidableEq, Inhabited, Repr

namespace Binary64

def ofFloat (x : Float) : Binary64 := ⟨x.toBits⟩

def toFloat (x : Binary64) : Float := Float.ofBits x.bits

def zero : Binary64 := ⟨0⟩

def one : Binary64 := ⟨0x3FF0000000000000⟩

def infinity : Binary64 := ⟨0x7FF0000000000000⟩

def nan : Binary64 := ⟨0x7FF8000000000000⟩

def isNegative (x : Binary64) : Bool := x.bits ≥ 0x8000000000000000

/-- The bits without the sign. -/
def magnitude (x : Binary64) : Nat := x.bits.toNat % 0x8000000000000000

def negate (x : Binary64) : Binary64 := ⟨x.bits ^^^ 0x8000000000000000⟩

def isNaN (x : Binary64) : Bool := x.magnitude > infinity.magnitude

def isFinite (x : Binary64) : Bool := x.magnitude < infinity.magnitude

/-- The place of a number in the total order: negative NaNs, -inf, the negative numbers, -0, 0,
the positive numbers, inf, positive NaNs. -/
def rank (x : Binary64) : Int :=
  if x.isNegative then -(x.magnitude : Int) - 1 else x.magnitude

/-- At most, in the total order. -/
def atMost (x y : Binary64) : Bool := x.rank ≤ y.rank

/-- The magnitude of a finite number is `significand * 2 ^ exponent`. -/
def significand (x : Binary64) : Nat :=
  if x.magnitude < 0x10000000000000 then x.magnitude
  else 0x10000000000000 + x.magnitude % 0x10000000000000

def exponent (x : Binary64) : Int :=
  if x.magnitude < 0x10000000000000 then -1074
  else (x.magnitude / 0x10000000000000 : Nat) - 1075

/-- A number between zero and one, the bounds included. -/
def inUnitInterval (x : Binary64) : Bool :=
  !x.isNaN && x.toFloat ≥ 0.0 && x.toFloat ≤ 1.0

/-- The least natural number that is at least `x`, within sixty-four bits; zero for a NaN. -/
def ceilNat (x : Binary64) : Nat :=
  if x.isNaN || x.isNegative then 0
  else if !x.isFinite then 0xFFFFFFFFFFFFFFFF
  else
    let ceiling :=
      if x.exponent ≥ 0 then x.significand * Nat.pow 2 x.exponent.toNat
      else
        let unit := Nat.pow 2 (-x.exponent).toNat
        (x.significand + (unit - 1)) / unit
    min ceiling 0xFFFFFFFFFFFFFFFF

def add (x y : Binary64) : Binary64 := ofFloat (x.toFloat + y.toFloat)

def mul (x y : Binary64) : Binary64 := ofFloat (x.toFloat * y.toFloat)

def div (x y : Binary64) : Binary64 := ofFloat (x.toFloat / y.toFloat)

/-- The nearest binary64 number to a sixty-four bit natural number. -/
def ofUInt64 (n : UInt64) : Binary64 := ofFloat n.toFloat

end Binary64

end HedgedStore
