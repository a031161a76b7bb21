import Folio.Decimal.Extended
import Folio.Json.Printer
import Folio.Text.Encoding

/-!
# Values in a database

A parameter is stored in one of five classes, and a row gives it back as JSON.
Lists and objects are stored as their text, truth values as one and zero, and
integers above the largest one of 64 bits with a sign as doubles.
-/

namespace Folio.Database

inductive Stored where
  | null
  | integer (n : Int)
  | real (x : Float)
  | text (s : String)
  | blob (bytes : List UInt8)

/-- Integers that fit are stored as such, other numbers as doubles. -/
def Stored.ofNumber? (n : Number) : Option Stored :=
  match n.integer? with
  | some i => some (.integer i)
  | none => n.double?.map .real

/-- What is stored for a parameter. A number without a reading has nothing. -/
def Stored.bind? : Json → Option Stored
  | .null => some .null
  | .bool b => some (.integer (if b then 1 else 0))
  | .number n => ofNumber? n
  | .string s => some (.text s)
  | value => some (.text value.toText)

def Stored.bind (value : Json) : Stored :=
  (bind? value).getD .null

/-- The values that parameters are bound to, one after the other. -/
def bindings (params : List Json) : List Stored :=
  params.filterMap Stored.bind?

theorem Stored.ofNumber?_isSome (n : Number) : (ofNumber? n).isSome := by
  unfold ofNumber?
  split
  · rfl
  · cases n <;> rfl

theorem Stored.bind?_eq (value : Json) : bind? value = some (bind value) := by
  unfold bind
  cases value with
  | number n =>
    obtain ⟨stored, h⟩ := Option.isSome_iff_exists.mp (ofNumber?_isSome n)
    simp [bind?, h]
  | _ => rfl

/-- No parameter is passed over. -/
theorem bindings_eq_map (params : List Json) : bindings params = params.map Stored.bind := by
  simp [bindings, funext Stored.bind?_eq]

def hexText (bytes : List UInt8) : String :=
  String.ofList (bytes.flatMap Text.hexByte)

/-- What a row shows of a value. A double that is not finite has none in JSON. -/
def Stored.toJson : Stored → Json
  | .null => .null
  | .integer n => .int n
  | .real x => if x.isFinite then .number (.float x) else .null
  | .text s => .string s
  | .blob bytes => .string (hexText bytes)

/-- Doubles are written with up to fifteen digits, as short as these allow. -/
def realLayout : Decimal.Layout where
  leastPlain := -4
  greatestPlain := 14
  fractionBeforeExponent := true
  exponentWidth := 2

/-- The text of a double. Zero has no sign. -/
def realText (x : Float) : List Char :=
  let double := Decimal.Double.ofFloat x
  if x.isInf then (if double.negative then ['-'] else []) ++ ['I', 'n', 'f']
  else realLayout.write (double.negative && double.mantissa ≠ 0) (double.significant 15)

/-- The value as the bytes of its text. -/
def Stored.toBlob : Stored → Stored
  | .null => .null
  | .integer n => .blob (Text.utf8 (Number.intText n))
  | .real x => .blob (Text.utf8 (realText x))
  | .text s => .blob (Text.utf8 s.toList)
  | .blob bytes => .blob bytes

/-- A row as an object. Of columns with one name the last counts. -/
def rowObject (columns : List (String × Stored)) : Json :=
  .object (Json.Members.ofList (columns.map fun (name, value) => (name, value.toJson)))

end Folio.Database
