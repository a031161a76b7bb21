import Folio.Database.Fault
import Folio.Numeral
import Folio.Text.Hex

/-!
# Names as a database reads them

Names in statements are not quoted, so the database decides what each one is: a
name, a reserved word, a constant, a number, a parameter, or no token at all.
-/

namespace Folio.Database

/-- Words that cannot name a table or a column. -/
def reservedWords : List String :=
  ["add", "all", "alter", "and", "as", "autoincrement", "between", "case", "check", "collate",
    "commit", "constraint", "create", "default", "deferrable", "delete", "distinct", "drop",
    "else", "escape", "except", "exists", "foreign", "from", "group", "having", "in", "index",
    "insert", "intersect", "into", "is", "isnull", "join", "limit", "not", "nothing", "notnull",
    "null", "on", "or", "order", "primary", "references", "returning", "select", "set", "table",
    "then", "to", "transaction", "union", "unique", "update", "using", "values", "when", "where"]

/-- Words that are values where no column has the name. -/
def constantWords : List String :=
  ["null", "true", "false", "current_date", "current_time", "current_timestamp"]

/-- Case does not matter for ASCII letters. -/
def folded (name : String) : String :=
  String.ofList (name.toList.map Char.toLower)

/-- A character of a name behind its first one. -/
def isWordChar (c : Char) : Bool :=
  c.isAlphanum || c = '_' || c = '$'

inductive Token where
  | word (text : String)
  | number (text : String)
  | parameter (text : String)
  | point
  | bad (text : String)
  deriving DecidableEq, Repr

def Token.text : Token → String
  | .word text => text
  | .number text => text
  | .parameter text => text
  | .point => "."
  | .bad text => text

def isNumberStart : List Char → Bool
  | '.' :: c :: _ => c.isDigit
  | c :: _ => c.isDigit
  | [] => false

def isHexDigit (c : Char) : Bool :=
  (Text.hexValue? c).isSome

/-- A run of digits, which may have marks between them, and what follows. -/
def digitRun (digit : Char → Bool) (text : List Char) : List Char × List Char :=
  text.span fun c => digit c || c = '_'

/-- Whether every mark has a digit on either side. -/
def marksStandBetween (digit : Char → Bool) : List Char → Bool
  | a :: '_' :: b :: rest => digit a && digit b && marksStandBetween digit (b :: rest)
  | [_, '_'] => false
  | _ :: rest => marksStandBetween digit rest
  | [] => true

/-- A point with digits. -/
def fractionRun : List Char → List Char × List Char
  | '.' :: text =>
    let (run, rest) := digitRun Char.isDigit text
    ('.' :: run, rest)
  | text => ([], text)

/-- An exponent, which has at least one digit. -/
def exponentRun : List Char → List Char × List Char
  | mark :: c :: text =>
    if (mark = 'e' || mark = 'E') && c.isDigit then
      let (run, rest) := digitRun Char.isDigit text
      (mark :: c :: run, rest)
    else ([], mark :: c :: text)
  | text => ([], text)

def decimalRun (text : List Char) : List Char × List Char :=
  let (whole, rest) := digitRun Char.isDigit text
  let (fraction, rest) := fractionRun rest
  let (exponent, rest) := exponentRun rest
  (whole ++ fraction ++ exponent, rest)

/-- A zero and an `x` before at least one digit begin a hexadecimal number. -/
def numberRun (text : List Char) : Bool × List Char × List Char :=
  match text with
  | '0' :: mark :: c :: rest =>
    if (mark = 'x' || mark = 'X') && isHexDigit c then
      let (run, rest) := digitRun isHexDigit rest
      (marksStandBetween isHexDigit (c :: run), '0' :: mark :: c :: run, rest)
    else
      let (run, rest) := decimalRun text
      (marksStandBetween Char.isDigit run, run, rest)
  | text =>
    let (run, rest) := decimalRun text
    (marksStandBetween Char.isDigit run, run, rest)

/-- A number at the front of a text. A word right behind it spoils it. -/
def numberToken (text : List Char) : Token × Nat :=
  let (good, run, rest) := numberRun text
  let spoiled := rest.takeWhile isWordChar
  let whole := String.ofList (run ++ spoiled)
  (if good && spoiled.isEmpty then .number whole else .bad whole, run.length + spoiled.length)

def isHexNumber (number : String) : Bool :=
  match number.toList with
  | '0' :: mark :: _ => mark = 'x' || mark = 'X'
  | _ => false

/-- The integer that a number is, if it has neither point nor exponent. -/
def integerOf? (number : String) : Option Nat :=
  match number.toList.filter (· ≠ '_') with
  | '0' :: mark :: digits =>
    if mark = 'x' || mark = 'X' then
      (digits.mapM Text.hexValue?).map fun values => values.foldl (fun n value => 16 * n + value) 0
    else decimal? ('0' :: mark :: digits)
  | digits => decimal? digits
where
  decimal? (digits : List Char) : Option Nat :=
    if !digits.isEmpty && digits.all Char.isDigit then some (Numeral.valueOf digits) else none

/-- The first token of a text, and the number of its characters. -/
def firstToken (text : List Char) : Token × Nat :=
  if isNumberStart text then numberToken text
  else
    match text with
    | '.' :: _ => (.point, 1)
    | '$' :: rest =>
      let run := '$' :: rest.takeWhile isWordChar
      (if run.length = 1 then .bad "$" else .parameter (String.ofList run), run.length)
    | text =>
      let run := text.takeWhile isWordChar
      (.word (String.ofList run), run.length)

/-- The tokens of a text of word characters and points. -/
def tokens (text : String) : List Token :=
  go text.length text.toList
where
  go : Nat → List Char → List Token
    | 0, _ => []
    | _, [] => []
    | fuel + 1, text =>
      let (token, length) := firstToken text
      token :: go fuel (text.drop length)

/-- The fault that a token causes where none of its kind may stand. -/
def Token.refuse : Token → Fault
  | .bad text => .unrecognized text
  | token => .unexpected token.text

def Token.isName : Token → Bool
  | .word text => !reservedWords.contains (folded text)
  | _ => false

end Folio.Database
