/-!
# Decimal integers of a bounded range

Two readers. `Range.read` takes a whole text and says what is wrong with it;
`leading` takes the digits a text starts with and ignores what follows them.
Digits are ASCII, leading zeros are free, and neither reader wraps around.
-/

namespace Folio.Numeral

inductive Fault where
  | empty
  | invalidDigit
  | tooLarge
  | tooSmall
  deriving DecidableEq, Repr

def Fault.message : Fault → String
  | .empty => "cannot parse integer from empty string"
  | .invalidDigit => "invalid digit found in string"
  | .tooLarge => "number too large to fit in target type"
  | .tooSmall => "number too small to fit in target type"

/-- The integers from `-below` to `above`. A range without negative numbers
has no minus sign either. -/
structure Range where
  below : Nat
  above : Nat
  deriving DecidableEq, Repr

/-- The largest number of so many binary digits. -/
def largest (bits : Nat) : Nat :=
  Nat.pow 2 bits - 1

def Range.signed (bits : Nat) : Range :=
  ⟨largest (bits - 1) + 1, largest (bits - 1)⟩

def Range.unsigned (bits : Nat) : Range :=
  ⟨0, largest bits⟩

def Range.Contains (range : Range) (n : Int) : Prop :=
  -range.below ≤ n ∧ n ≤ range.above

def digitValue (c : Char) : Nat :=
  c.toNat - '0'.toNat

/-- Reads digits after `value` from the left. The first character that is no
digit, or the first digit that takes the number past `bound`, decides. -/
def readDigits (bound : Nat) (past : Fault) : Nat → List Char → Except Fault Nat
  | value, [] => .ok value
  | value, c :: rest =>
    if !c.isDigit then .error .invalidDigit
    else if bound < 10 * value + digitValue c then .error past
    else readDigits bound past (10 * value + digitValue c) rest

def readMagnitude (bound : Nat) (past : Fault) (digits : List Char) : Except Fault Nat :=
  if digits.isEmpty then .error .invalidDigit else readDigits bound past 0 digits

def Range.read (range : Range) : List Char → Except Fault Int
  | [] => .error .empty
  | '+' :: digits => (readMagnitude range.above .tooLarge digits).map Int.ofNat
  | '-' :: digits =>
    if range.below = 0 then .error .invalidDigit
    else (readMagnitude range.below .tooSmall digits).map fun n => -Int.ofNat n
  | digits => (readMagnitude range.above .tooLarge digits).map Int.ofNat

/-- The number that a list of digits writes. -/
def valueOf (digits : List Char) : Nat :=
  digits.foldl (fun value c => 10 * value + digitValue c) 0

/-- An optional sign and the digits after it; nothing without a digit, or when
the digits write more than `bound`. -/
def leading (bound : Nat) (text : List Char) : Option Int :=
  match text with
  | '-' :: rest => (magnitude rest).map fun n => -Int.ofNat n
  | '+' :: rest => (magnitude rest).map Int.ofNat
  | rest => (magnitude rest).map Int.ofNat
where
  magnitude (text : List Char) : Option Nat :=
    let digits := text.takeWhile Char.isDigit
    if digits.isEmpty || bound < valueOf digits then none else some (valueOf digits)

end Folio.Numeral
