import Folio.Decimal.Interval

/-!
# Decimal digits of double precision numbers

A finite double is a whole number times a power of two. From these two the
module finds its shortest digits, and the exact digits of a whole number.
-/

namespace Folio.Decimal

/-- The number `mantissa * 2 ^ exponent`, up to its sign. When `narrow` is set
the next smaller double is only half as far away as the next larger one. -/
structure Double where
  negative : Bool
  mantissa : Nat
  exponent : Int
  narrow : Bool
  deriving DecidableEq, Repr

def Double.ofBits (bits : Nat) : Double :=
  let field : Nat := bits / Nat.pow 2 52 % Nat.pow 2 11
  let fraction : Nat := bits % Nat.pow 2 52
  { negative := bits / Nat.pow 2 63 = 1
    mantissa := if field = 0 then fraction else fraction + Nat.pow 2 52
    exponent := if field = 0 then -1074 else (field : Int) - 1075
    narrow := fraction = 0 && 1 < field }

def Double.ofFloat (x : Float) : Double :=
  .ofBits x.toBits.toNat

/-- The reals that round to the number, in units of `2 ^ (exponent - 2)`. -/
def Double.interval (x : Double) : Interval where
  low := 4 * x.mantissa - (if x.narrow then 1 else 2)
  center := 4 * x.mantissa
  high := 4 * x.mantissa + 2
  closed := x.mantissa % 2 = 0

/-- Significant digits and the power of ten of the first of them. -/
structure Digits where
  digits : List Char
  exponent : Int
  deriving DecidableEq, Repr

/-- Takes the zeros off the end, all but a first digit. -/
def Digits.trimmed (d : Digits) : Digits :=
  match (d.digits.reverse.dropWhile (· = '0')).reverse with
  | [] => ⟨d.digits.take 1, d.exponent⟩
  | digits => ⟨digits, d.exponent⟩

/-- The power of ten of the first digit of `top / bottom`. -/
def leadingExponent (top bottom : Nat) : Int :=
  if bottom ≤ top then ((Nat.toDigits 10 (top / bottom)).length : Int) - 1
  else -((Nat.toDigits 10 ((bottom - 1) / top)).length : Int)

/-- `top / bottom` is the number itself, up to its sign. -/
def Double.ratio (x : Double) : Nat × Nat :=
  (x.mantissa * Nat.pow 2 x.exponent.toNat, Nat.pow 2 (-x.exponent).toNat)

/-- Digits for a count of steps on the grid of `10 ^ last`. -/
def Digits.ofSteps (steps : Nat) (last : Int) : Digits :=
  let digits := Nat.toDigits 10 steps
  (Digits.mk digits (last + digits.length - 1)).trimmed

/-- The digits on the grid of `10 ^ last`, if a point of it reads back. -/
def Double.onGrid? (x : Double) (last : Int) : Option Digits :=
  let unit := x.exponent - 2
  let interval := x.interval.scale (Nat.pow 2 unit.toNat * Nat.pow 10 (-last).toNat)
  let grid := Nat.pow 2 (-unit).toNat * Nat.pow 10 last.toNat
  (interval.gridPoint? grid).map (Digits.ofSteps · last)

/-- The fewest digits that read back. Seventeen always do. -/
def Double.shortest (x : Double) : Digits :=
  if x.mantissa = 0 then ⟨['0'], 0⟩
  else
    let (top, bottom) := x.ratio
    let first := leadingExponent top bottom
    ((List.range 17).findSome? fun (k : Nat) => x.onGrid? (first - k)).getD ⟨['0'], 0⟩

/-- The number without its sign, when it is whole. -/
def Double.whole? (x : Double) : Option Nat :=
  let (top, bottom) := x.ratio
  if top % bottom = 0 then some (top / bottom) else none

end Folio.Decimal
