/-! Hexadecimal digits. -/
namespace HedgedStore.Text

/-- The lower-case hexadecimal digits of a number. -/
def hexDigits (n : Nat) : List Char := Nat.toDigits 16 n

/-- The value of hexadecimal digits, if all of them are. -/
def hexValue? (cs : List Char) : Option Nat :=
  cs.foldl (fun value c => value.bind fun n =>
    if c.isDigit then some (16 * n + (c.toNat - '0'.toNat))
    else if 'a' ≤ c && c ≤ 'f' then some (16 * n + (c.toNat - 'a'.toNat + 10))
    else if 'A' ≤ c && c ≤ 'F' then some (16 * n + (c.toNat - 'A'.toNat + 10))
    else none) (some 0)

end HedgedStore.Text
