import Folio.Decimal.Layout
import Folio.Numeral

/-!
# Numbers in JSON data

An integer and a double are different numbers even when they are equal in value,
and their texts keep them apart: a double always shows a fraction or an exponent.
-/

namespace Folio

inductive Number where
  | int (n : Int)
  | float (x : Float)

namespace Number

/-- The largest integer of 64 bits with a sign. -/
def integerLimit : Int :=
  Numeral.largest 63

/-- Doubles from a hundred-thousandth up to ten to the sixteenth are written
without an exponent. -/
def layout : Decimal.Layout where
  leastPlain := -5
  greatestPlain := 15
  fractionBeforeExponent := false
  exponentWidth := 1

def intText (n : Int) : List Char :=
  if n < 0 then '-' :: Nat.toDigits 10 n.natAbs else Nat.toDigits 10 n.natAbs

def floatText (x : Float) : List Char :=
  let double := Decimal.Double.ofFloat x
  layout.write double.negative double.shortest

def text : Number → List Char
  | .int n => intText n
  | .float x => floatText x

/-- The number as an integer of 64 bits with a sign, if it is one. -/
def integer? : Number → Option Int
  | .int n => if n ≤ integerLimit then some n else none
  | .float _ => none

/-- The number as a double. -/
def double? : Number → Option Float
  | .int n =>
    let size := n.natAbs.toUInt64.toFloat
    some (if n < 0 then -size else size)
  | .float x => some x

def isZero : Number → Bool
  | .int n => n = 0
  | .float x => (Decimal.Double.ofFloat x).mantissa = 0

/-- Whole doubles below ten to the twenty-first lose their fraction, and zero
its sign. -/
def looseText : Number → List Char
  | .int n => intText n
  | .float x =>
    let double := Decimal.Double.ofFloat x
    match double.whole? with
    | some n =>
      if Nat.pow 10 21 ≤ n then floatText x
      else intText (if double.negative then -Int.ofNat n else Int.ofNat n)
    | none => floatText x

end Number

end Folio
