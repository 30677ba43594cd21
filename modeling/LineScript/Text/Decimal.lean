/-!
# Decimal integers of 64 bits

An integer is written as an optional sign and at least one ASCII digit, with any
number of leading zeros.  Reading is exact: the number that the digits denote is
computed without a bound, and only then checked against the range of signed
64-bit integers, so nothing ever wraps.
-/

namespace LineScript

namespace Decimal

/-- The number that ASCII digits denote, most significant digit first. -/
def valueOfDigits (digits : List Char) : Nat :=
  digits.foldl (fun value digit => value * 10 + (digit.toNat - '0'.toNat)) 0

/-- The natural number written by `digits`: at least one character, all of them ASCII digits. -/
def readNat? (digits : List Char) : Option Nat :=
  if digits ≠ [] ∧ digits.all Char.isDigit then some (valueOfDigits digits) else none

/-- The integer written by `text`, which may begin with one sign. -/
def readInt? : List Char → Option Int
  | '+' :: digits => (readNat? digits).map Int.ofNat
  | '-' :: digits => (readNat? digits).map fun value => -Int.ofNat value
  | digits => (readNat? digits).map Int.ofNat

end Decimal

/-- The signed 64-bit integer that `text` writes in decimal, if it writes one. -/
def readInt64? (text : String) : Option Int64 :=
  match Decimal.readInt? text.toList with
  | some value =>
    if Int64.minValue.toInt ≤ value ∧ value ≤ Int64.maxValue.toInt then some (Int64.ofInt value)
    else none
  | none => none

end LineScript
