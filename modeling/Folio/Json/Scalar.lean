import Folio.Json.Cursor
import Folio.Numeral
import Folio.Text.Hex

/-!
# Strings, numbers and words of JSON text

Numbers without fraction and exponent are integers while 64 bits hold them. All
others are doubles: their digits are kept while 64 bits hold them, and one
multiplication or division by a power of ten follows.
-/

namespace Folio.Json

open Reading

/-- The rest of a word whose first letter has been read. -/
def readWord : List Char → Reading Unit
  | [] => pure ()
  | expected :: rest => do
    match ← peek with
    | none => ended .value
    | some c => if c = expected then do advance; readWord rest else refuse .expectedIdent

def isControl (c : Char) : Bool :=
  c.toNat < 0x20

def hexUnit? (a b c d : Char) : Option Nat := do
  let a ← Text.hexValue? a
  let b ← Text.hexValue? b
  let c ← Text.hexValue? c
  let d ← Text.hexValue? d
  return ((a * 16 + b) * 16 + c) * 16 + d

/-- Four hexadecimal digits. The four bytes are taken at once, so a wrong digit
is reported behind the last of them. -/
def readHexUnit : Reading Nat := do
  let cursor ← get
  match cursor.rest with
  | a :: b :: c :: d :: _ =>
    match hexUnit? a b c d with
    | some unit => do advance; advance; advance; advance; return unit
    | none => fail (.malformed .invalidEscape) 4
  | rest =>
    let fault : Fault :=
      if (String.ofList rest).utf8ByteSize < 4 then .ended .string else .malformed .invalidEscape
    fail fault 4

def isLeadingSurrogate (unit : Nat) : Bool :=
  0xD800 ≤ unit && unit ≤ 0xDBFF

def isTrailingSurrogate (unit : Nat) : Bool :=
  0xDC00 ≤ unit && unit ≤ 0xDFFF

/-- Reads one more character of the escape that has to follow a leading surrogate. -/
def readPairMark (mark : Char) : Reading Unit := do
  match ← peek with
  | none => ended .string
  | some c => if c = mark then advance else refuse .unfinishedSurrogate

def readUnicodeEscape : Reading Char := do
  let unit ← readHexUnit
  if isTrailingSurrogate unit then fail (.malformed .loneSurrogate) 0
  else if isLeadingSurrogate unit then do
    readPairMark '\\'
    readPairMark 'u'
    let second ← readHexUnit
    if isTrailingSurrogate second then
      return Char.ofNat (0x10000 + (unit - 0xD800) * 0x400 + (second - 0xDC00))
    else fail (.malformed .loneSurrogate) 0
  else return Char.ofNat unit

/-- The characters that one letter behind a backslash stands for. -/
def escapeLetter? : Char → Option Char
  | '"' => some '"'
  | '\\' => some '\\'
  | '/' => some '/'
  | 'b' => some '\x08'
  | 'f' => some '\x0c'
  | 'n' => some '\n'
  | 'r' => some '\r'
  | 't' => some '\t'
  | _ => none

def readEscape : Reading Char := do
  match ← peek with
  | none => ended .string
  | some 'u' => do advance; readUnicodeEscape
  | some letter =>
    match escapeLetter? letter with
    | some c => do advance; return c
    | none => refuse .invalidEscape

/-- One character of a string in front of those read before; nothing at the closing quote. -/
def readStringStep (before : List Char) : Reading (Option (List Char)) := do
  match ← peek with
  | none => ended .string
  | some '"' => do advance; return none
  | some '\\' => do advance; return some ((← readEscape) :: before)
  | some c =>
    if isControl c then refuse .controlCharacter else do advance; return some (c :: before)

/-- The rest of a string whose opening quote has been read. -/
def readString : Reading String := do
  let reversed ← iterate readStringStep []
  return String.ofList reversed.reverse

/-- The digits of a number as they stand in the text. -/
structure NumberParts where
  negative : Bool
  whole : List Char
  fraction : Option (List Char)
  /-- Whether the exponent has a minus sign, and its digits. -/
  exponent : Option (Bool × List Char)
  deriving DecidableEq, Repr

/-- A run of digits, at least one. The text may not end before it for the reason `atEnd`. -/
def readDigits (atEnd : Fault) : Reading (List Char) := do
  match ← peek with
  | none => fail atEnd 0
  | some c => if c.isDigit then takeWhile Char.isDigit else refuse .invalidNumber

/-- The digits in front of a point. A zero stands alone. -/
def readWhole (atEnd : Fault) : Reading (List Char) := do
  match ← peek with
  | some '0' => do
    advance
    match ← peek with
    | some c => if c.isDigit then refuse .invalidNumber else return ['0']
    | none => return ['0']
  | _ => readDigits atEnd

def readFraction (atEnd : Fault) : Reading (Option (List Char)) := do
  match ← peek with
  | some '.' => do advance; return some (← readDigits atEnd)
  | _ => return none

def readExponent (atEnd : Fault) : Reading (Option (Bool × List Char)) := do
  let mark ← peek
  if mark = some 'e' || mark = some 'E' then
    advance
    match ← peek with
    | some '-' => do advance; return some (true, ← readDigits atEnd)
    | some '+' => do advance; return some (false, ← readDigits atEnd)
    | _ => return some (false, ← readDigits atEnd)
  else return none

def readNumberParts (atEnd : Fault) : Reading NumberParts := do
  let negative := (← peek) = some '-'
  if negative then advance
  let whole ← readWhole atEnd
  let fraction ← readFraction atEnd
  let exponent ← readExponent atEnd
  return { negative, whole, fraction, exponent }

/-- Digits kept so far, and the power of ten that they still lack. -/
structure Significand where
  value : Nat
  exponent : Int
  deriving DecidableEq, Repr

def significandLimit : Nat := Numeral.largest 64

/-- Keeps digits while they fit; the others only count. -/
def Significand.ofWhole (digits : List Char) : Significand :=
  go 0 digits
where
  go (value : Nat) : List Char → Significand
    | [] => ⟨value, 0⟩
    | c :: rest =>
      let next := 10 * value + Numeral.digitValue c
      if significandLimit < next then ⟨value, (rest.length : Int) + 1⟩ else go next rest

/-- Keeps digits behind the point up to the first that does not fit. -/
def Significand.addFraction (s : Significand) : List Char → Significand
  | [] => s
  | c :: rest =>
    let next := 10 * s.value + Numeral.digitValue c
    if significandLimit < next then s else Significand.addFraction ⟨next, s.exponent - 1⟩ rest

def powerOfTen (exponent : Nat) : Float :=
  Float.ofScientific 1 false exponent

/-- `x` times a power of ten; nothing when that is beyond all doubles. -/
def scaleByTen (x : Float) (exponent : Int) : Option Float :=
  if exponent.natAbs ≤ 308 then
    if 0 ≤ exponent then
      let scaled := x * powerOfTen exponent.natAbs
      if scaled.isInf then none else some scaled
    else some (x / powerOfTen exponent.natAbs)
  else if x == 0.0 then some x
  else if 0 ≤ exponent then none
  else scaleByTen (x / powerOfTen 308) (exponent + 308)
termination_by (-exponent).toNat

def Significand.toFloat? (s : Significand) : Option Float :=
  scaleByTen s.value.toUInt64.toFloat s.exponent

/-- The largest exponent that is looked at. -/
def exponentLimit : Nat := Numeral.largest 31

/-- How many digits of an exponent stand behind the one that makes it too large. -/
def digitsBeyond? (digits : List Char) : Option Nat :=
  go 0 digits
where
  go (value : Nat) : List Char → Option Nat
    | [] => none
    | c :: rest =>
      let next := 10 * value + Numeral.digitValue c
      if exponentLimit < next then some rest.length else go next rest

def withSign (negative : Bool) (x : Float) : Float :=
  if negative then -x else x

/-- The integer that the digits write, if 64 bits hold it. Minus zero is not an integer. -/
def NumberParts.integer? (parts : NumberParts) : Option Int :=
  let n := Numeral.valueOf parts.whole
  if parts.fraction.isSome || parts.exponent.isSome then none
  else if parts.negative then (if 0 < n && n ≤ Numeral.largest 63 + 1 then some (-n) else none)
  else if n ≤ Numeral.largest 64 then some n
  else none

/-- The number that the parts write. The error is the count of its last characters
that are not needed to see that it is beyond all doubles. -/
def NumberParts.number (parts : NumberParts) : Except Nat Number :=
  match parts.integer? with
  | some n => .ok (.int n)
  | none =>
    let digits := (Significand.ofWhole parts.whole).addFraction (parts.fraction.getD [])
    let (down, exponentDigits) := parts.exponent.getD (false, [])
    match digitsBeyond? exponentDigits with
    | some unread =>
      if digits.value ≠ 0 && !down then .error unread
      else .ok (.float (withSign parts.negative 0.0))
    | none =>
      let size := (Numeral.valueOf exponentDigits : Int)
      let exponent := digits.exponent + if down then -size else size
      match Significand.toFloat? ⟨digits.value, exponent⟩ with
      | some x => .ok (.float (withSign parts.negative x))
      | none => .error 0

def readNumber : Reading Number := do
  let parts ← readNumberParts (.ended .value)
  match parts.number with
  | .ok n => return n
  | .error unread => failBack (.malformed .numberOutOfRange) unread

end Folio.Json
