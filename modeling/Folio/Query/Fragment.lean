import Folio.Json.Loose
import Folio.Query.Field

/-!
# Compiled conditions

A fragment is one test on a field. It writes itself as SQL with a placeholder
for each of its parameters, in the order of the parameters.
-/

namespace Folio.Query

inductive Comparison where
  | equal
  | notEqual
  | greater
  | greaterOrEqual
  | less
  | lessOrEqual
  deriving DecidableEq, Repr

def Comparison.sql : Comparison → String
  | .equal => "="
  | .notEqual => "!="
  | .greater => ">"
  | .greaterOrEqual => ">="
  | .less => "<"
  | .lessOrEqual => "<="

inductive Fragment where
  | isNull (field : Field)
  | isNotNull (field : Field)
  | compare (field : Field) (comparison : Comparison) (operand : Json)
  /-- The text occurs in the field. -/
  | contains (field : Field) (text : String)
  /-- All of the texts occur in the field. -/
  | containsAll (field : Field) (texts : List String)
  | oneOf (field : Field) (values : List Json)
  | noneOf (field : Field) (values : List Json)
  | filled (field : Field)
  | unfilled (field : Field)

def Fragment.field : Fragment → Field
  | .isNull field => field
  | .isNotNull field => field
  | .compare field _ _ => field
  | .contains field _ => field
  | .containsAll field _ => field
  | .oneOf field _ => field
  | .noneOf field _ => field
  | .filled field => field
  | .unfilled field => field

/-- The texts with a separator between each two. -/
def joined (separator : String) : List String → String
  | [] => ""
  | [text] => text
  | text :: rest => text ++ separator ++ joined separator rest

def placeholders (count : Nat) : String :=
  joined ", " (List.replicate count "?")

def Fragment.sql : Fragment → String
  | .isNull field => field.sql ++ " IS NULL"
  | .isNotNull field => field.sql ++ " IS NOT NULL"
  | .compare field comparison _ => field.sql ++ " " ++ comparison.sql ++ " ?"
  | .contains field _ => field.sql ++ " LIKE ?"
  | .containsAll field texts =>
    if texts.isEmpty then "1=1"
    else "(" ++ joined " AND " (texts.map fun _ => field.sql ++ " LIKE ?") ++ ")"
  | .oneOf field values =>
    if values.isEmpty then "1=0"
    else field.sql ++ " IN (" ++ placeholders values.length ++ ")"
  | .noneOf field values =>
    if values.isEmpty then "1=1"
    else field.sql ++ " NOT IN (" ++ placeholders values.length ++ ")"
  | .filled field => field.sql ++ " IS NOT NULL AND " ++ field.sql ++ " != ''"
  | .unfilled field => "(" ++ field.sql ++ " IS NULL OR " ++ field.sql ++ " = '')"

/-- The pattern of the texts that contain `text`. -/
def substringPattern (text : String) : Json :=
  .string ("%" ++ text ++ "%")

def Fragment.params : Fragment → List Json
  | .compare _ _ operand => [operand]
  | .contains _ text => [substringPattern text]
  | .containsAll _ texts => texts.map substringPattern
  | .oneOf _ values => values
  | .noneOf _ values => values
  | .isNull _ | .isNotNull _ | .filled _ | .unfilled _ => []

end Folio.Query
