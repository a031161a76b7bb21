import Folio.Decimal.Double

/-!
# First digits in extended precision

Numbers with mantissas of 64 bits. The first digits of a double are found by
multiplications with powers of ten, each of them rounded to such a number, so the
last of these digits may differ from the nearest one when the double lies almost
halfway between two.
-/

namespace Folio.Decimal

/-- The number `mantissa * 2 ^ exponent`, whose mantissa has at most 64 bits. -/
structure Extended where
  mantissa : Nat
  exponent : Int
  deriving DecidableEq, Repr

namespace Extended

def precision : Nat := 64

def bitLength (n : Nat) : Nat :=
  if n = 0 then 0 else Nat.log2 n + 1

/-- The quotient nearest to `top / bottom`; of two the even one. -/
def nearest (top bottom : Nat) : Nat :=
  let quotient := top / bottom
  let rest := top % bottom
  if bottom < 2 * rest || (2 * rest = bottom && quotient % 2 = 1) then quotient + 1 else quotient

/-- The number nearest to `n * 2 ^ exponent`. -/
def round (n : Nat) (exponent : Int) : Extended :=
  let extra := bitLength n - precision
  ⟨nearest n (Nat.pow 2 extra), exponent + extra⟩

/-- The number nearest to `1 / n`. Rounding the quotient once more changes nothing
but a mantissa that has grown by a bit. -/
def inverse (n : Nat) : Extended :=
  let power := bitLength n + precision
  let top := Nat.pow 2 power
  let extra := bitLength (top / n) - precision
  round (nearest top (n * Nat.pow 2 extra)) (extra - power)

def powerOfTen (k : Int) : Extended :=
  if k < 0 then inverse (Nat.pow 10 k.natAbs) else round (Nat.pow 10 k.natAbs) 0

def mul (x y : Extended) : Extended :=
  round (x.mantissa * y.mantissa) (x.exponent + y.exponent)

def isBelow (x y : Extended) : Bool :=
  x.mantissa * Nat.pow 2 (x.exponent - y.exponent).toNat <
    y.mantissa * Nat.pow 2 (y.exponent - x.exponent).toNat

/-- The whole part. -/
def floor (x : Extended) : Nat :=
  x.mantissa * Nat.pow 2 x.exponent.toNat / Nat.pow 2 (-x.exponent).toNat

def ofDouble (x : Double) : Extended :=
  ⟨x.mantissa, x.exponent⟩

/-- A number with the power of ten that has been taken out of it. -/
structure Scaled where
  value : Extended
  power : Int
  deriving DecidableEq, Repr

def Scaled.shift (s : Scaled) (power : Int) : Scaled :=
  ⟨s.value.mul (powerOfTen (-power)), s.power + power⟩

/-- More steps than a double ever needs to come into one of the bounds below. -/
def mostSteps : Nat := 12

/-- Takes out the power as long as the number is not below the bound. -/
def Scaled.lower (s : Scaled) (power bound : Int) : Scaled :=
  (List.range mostSteps).foldl (fun s _ =>
    if s.value.isBelow (powerOfTen bound) then s else s.shift power) s

/-- Puts in the power as long as the number is below the bound. -/
def Scaled.raise (s : Scaled) (power bound : Int) : Scaled :=
  (List.range mostSteps).foldl (fun s _ =>
    if s.value.isBelow (powerOfTen bound) then s.shift (-power) else s) s

/-- Brings a number other than zero to eighteen or nineteen whole digits. -/
def Scaled.ofExtended (x : Extended) : Scaled :=
  if x.isBelow (powerOfTen 19) then
    (((Scaled.mk x 0).raise 100 (-97)).raise 10 7).raise 1 17
  else (((Scaled.mk x 0).lower 100 119).lower 10 29).lower 1 19

end Extended

/-- The first `count` digits, up to eighteen, with ties away from zero. -/
def Double.significant (x : Double) (count : Nat) : Digits :=
  if x.mantissa = 0 then ⟨['0'], 0⟩
  else
    let scaled := Extended.Scaled.ofExtended (.ofDouble x)
    let whole := scaled.value.floor
    let extra := (Nat.toDigits 10 whole).length - count
    let unit := Nat.pow 10 extra
    .ofSteps ((2 * whole + unit) / (2 * unit)) (scaled.power + extra)

end Folio.Decimal
