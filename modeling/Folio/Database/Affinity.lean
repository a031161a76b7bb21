import Folio.Database.Name
import Folio.Database.Stored
import Folio.Json.Reader
import Folio.Query.Fragment
import Folio.Text.Blank
import Folio.Text.Wildcard

/-!
# Comparing stored values

Numbers come before texts, and nothing compares with null. A column prefers a class
of values: what it is compared with is brought into that class first, where that
loses nothing.
-/

namespace Folio.Database

open Query (Comparison)

/-- The class of values that a column prefers. -/
inductive Affinity where
  | text
  | integer
  deriving DecidableEq, Repr

/-- A double as an integer, if it is one of 64 bits. -/
def wholeOf? (x : Float) : Option Int :=
  let double := Decimal.Double.ofFloat x
  (double.whole?.map fun n => if double.negative then -Int.ofNat n else Int.ofNat n).filter
    fun n => -Number.integerLimit ≤ n && n ≤ Number.integerLimit

/-- More than the exponent of any double. -/
def greatestExponent : Nat := 9999

/-- The value of a decimal number of a statement, whose parts may be missing. -/
def decimalValue (number : List Char) : Float :=
  let mantissa := number.takeWhile fun c => c.isDigit || c = '.'
  let exponent := (number.dropWhile fun c => c.isDigit || c = '.').drop 1
  let places := (mantissa.dropWhile (· ≠ '.')).drop 1
  let power := min (Numeral.valueOf (exponent.filter Char.isDigit)) greatestExponent
  let shift : Int := (if exponent.head? = some '-' then -(power : Int) else power) - places.length
  Float.ofScientific (Numeral.valueOf (mantissa.filter Char.isDigit)) (shift < 0) shift.natAbs

/-- The value of a number of a statement. A hexadecimal one is the bits of an integer. -/
def numberValue (text : String) : Stored :=
  match integerOf? text with
  | some n =>
    if n ≤ Numeral.largest 63 then .integer n
    else if isHexNumber text then .integer ((n : Int) - (Numeral.largest 64 + 1 : Nat))
    else .real (Float.ofScientific n false 0)
  | none => .real (decimalValue (text.toList.filter (· ≠ '_')))

def isSpace (c : Char) : Bool :=
  Text.isBlank c && c.toNat < 128

def trimSpaces (text : List Char) : List Char :=
  ((text.dropWhile isSpace).reverse.dropWhile isSpace).reverse

def withoutSign : List Char → List Char
  | '+' :: rest => rest
  | '-' :: rest => rest
  | rest => rest

/-- Whether nothing follows the digits of a number, or an exponent that has digits. -/
def isExponent : List Char → Bool
  | [] => true
  | mark :: rest =>
    let digits := withoutSign rest
    (mark = 'e' || mark = 'E') && !digits.isEmpty && digits.all Char.isDigit

/-- The number that a text is, but for spaces around it. The digits on one side of
the point may be missing. -/
def numberOf? (text : String) : Option Stored :=
  let signed := trimSpaces text.toList
  let number := withoutSign signed
  let mantissa := number.takeWhile fun c => c.isDigit || c = '.'
  if !mantissa.any Char.isDigit || 1 < mantissa.count '.' ||
      !isExponent (number.drop mantissa.length) then none
  else
    let negative := signed.head? = some '-'
    let magnitude := Numeral.valueOf number
    let whole : Int := if negative then -magnitude else magnitude
    if number.all Char.isDigit && -(Number.integerLimit + 1) ≤ whole && whole ≤ Number.integerLimit
    then some (.integer whole)
    else
      let value := decimalValue number
      some (.real (if negative then -value else value))

def Stored.toInteger : Stored → Stored
  | .real x => ((wholeOf? x).map Stored.integer).getD (.real x)
  | value => value

def Stored.toNumber : Stored → Stored
  | .text s => (numberOf? s).getD (.text s)
  | value => value

def Stored.toText : Stored → Stored
  | .integer n => .text (String.ofList (Number.intText n))
  | .real x => .text (String.ofList (realText x))
  | value => value

/-- A value as a column keeps it. -/
def Affinity.keep : Affinity → Stored → Stored
  | .text, value => value.toText
  | .integer, value => value.toNumber.toInteger

def Stored.isText : Stored → Bool
  | .text _ => true
  | _ => false

def Stored.isNull : Stored → Bool
  | .null => true
  | _ => false

/-- Two values as they are compared when one of them is of a column. -/
def Affinity.align (affinity : Option Affinity) (left right : Stored) : Stored × Stored :=
  match affinity with
  | some .integer => (left.toNumber, right.toNumber)
  | some .text =>
    if left.isText || right.isText then (left.toText, right.toText) else (left, right)
  | none => (left, right)

/-- The order of an integer and a double, without rounding either. -/
def orderToReal (n : Int) (x : Float) : Ordering :=
  let double := Decimal.Double.ofFloat x
  let (top, bottom) := double.ratio
  Ord.compare (n * bottom) (if double.negative then -Int.ofNat top else Int.ofNat top)

def orderOfReals (x y : Float) : Ordering :=
  if x < y then .lt else if x == y then .eq else .gt

/-- The order of two values that are not null. -/
def Stored.order : Stored → Stored → Ordering
  | .integer m, .integer n => Ord.compare m n
  | .integer m, .real y => orderToReal m y
  | .real x, .integer n => (orderToReal n x).swap
  | .real x, .real y => orderOfReals x y
  | .text s, .text t => Ord.compare s t
  | .text _, _ => .gt
  | _, _ => .lt

def comparisonHolds : Comparison → Ordering → Bool
  | .equal, order => order = .eq
  | .notEqual, order => order ≠ .eq
  | .greater, order => order = .gt
  | .greaterOrEqual, order => order ≠ .lt
  | .less, order => order = .lt
  | .lessOrEqual, order => order ≠ .gt

/-- What a comparison says; nothing if one side is null. -/
def compareStored (affinity : Option Affinity) (comparison : Comparison) (left right : Stored) :
    Option Bool :=
  if left.isNull || right.isNull then none
  else
    let (left, right) := Affinity.align affinity left right
    some (comparisonHolds comparison (left.order right))

/-- The bytes that a pattern may have. -/
def longestPattern : Nat := 50000

def isAnyChar (_ : Char) : Bool :=
  true

/-- Case does not matter for ASCII letters. -/
def patternPiece : Char → Text.Wildcard.Piece
  | '%' => .run isAnyChar
  | '_' => .one isAnyChar
  | c => .one fun d => d.toLower = c.toLower

def textMatches (pattern text : String) : Bool :=
  Text.Wildcard.covers (pattern.toList.map patternPiece) text.toList

end Folio.Database
