/-!
# Fields and tables in statements

Names cannot be bound as parameters, so only letters, digits and three marks of
a name are kept. A point leads into a JSON column.
-/

namespace Folio.Query

def isNameChar (c : Char) : Bool :=
  c.isAlphanum || c = '_' || c = '$' || c = '.'

def cleanName (name : String) : String :=
  String.ofList (name.toList.filter isNameChar)

inductive Field where
  | column (name : String)
  | path (base steps : String)
  deriving DecidableEq, Repr

/-- The field that a name addresses, if anything is left of its column. -/
def Field.ofName? (name : String) : Option Field :=
  let cleaned := name.toList.filter isNameChar
  let first := cleaned.takeWhile (· ≠ '.')
  if first.isEmpty then none
  else
    match cleaned.dropWhile (· ≠ '.') with
    | [] => some (.column (String.ofList first))
    | _ :: steps => some (.path (String.ofList first) (String.ofList steps))

def Field.sql : Field → String
  | .column name => name
  | .path base steps => "json_extract(" ++ base ++ ", '$." ++ steps ++ "')"

@[simp] theorem Field.sql_column (name : String) : (Field.column name).sql = name := rfl

@[simp] theorem Field.sql_path (base steps : String) :
    (Field.path base steps).sql = "json_extract(" ++ base ++ ", '$." ++ steps ++ "')" := rfl

end Folio.Query
