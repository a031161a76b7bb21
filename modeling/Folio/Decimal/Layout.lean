import Folio.Decimal.Double

/-!
# Written forms of a double

A layout says which numbers are written in plain form and how an exponent looks.
A plain number always shows a fraction, so it never reads as an integer.
-/

namespace Folio.Decimal

structure Layout where
  leastPlain : Int
  greatestPlain : Int
  /-- Whether a single digit before an exponent is followed by `.0`. -/
  fractionBeforeExponent : Bool
  exponentWidth : Nat
  deriving DecidableEq, Repr

def plain (digits : List Char) (exponent : Int) : List Char :=
  if exponent < 0 then
    ['0', '.'] ++ List.replicate (-exponent - 1).toNat '0' ++ digits
  else
    let whole := exponent.toNat + 1
    let fraction := digits.drop whole
    digits.take whole ++ List.replicate (whole - digits.length) '0' ++
      '.' :: (if fraction.isEmpty then ['0'] else fraction)

def Layout.exponential (layout : Layout) (digits : List Char) (exponent : Int) : List Char :=
  let fraction :=
    match digits.drop 1 with
    | [] => if layout.fractionBeforeExponent then ['.', '0'] else []
    | more => '.' :: more
  let size := Nat.toDigits 10 exponent.natAbs
  digits.take 1 ++ fraction ++ ['e', if exponent < 0 then '-' else '+'] ++
    List.replicate (layout.exponentWidth - size.length) '0' ++ size

def Layout.write (layout : Layout) (negative : Bool) (d : Digits) : List Char :=
  let body :=
    if layout.leastPlain ≤ d.exponent && d.exponent ≤ layout.greatestPlain then
      plain d.digits d.exponent
    else layout.exponential d.digits d.exponent
  if negative then '-' :: body else body

end Folio.Decimal
