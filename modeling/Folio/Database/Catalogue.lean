import Folio.Database.Affinity
import Folio.Database.Name

/-!
# The catalogue of a database

A new database holds only its own catalogue, which has no rows yet. The catalogue
goes by several names, and its rows have numbers that can be asked for like columns.
-/

namespace Folio.Database

def catalogueColumns : List String :=
  ["type", "name", "tbl_name", "rootpage", "sql"]

def rowNumberNames : List String :=
  ["rowid", "oid", "_rowid_"]

def mainCatalogues : List String :=
  ["sqlite_master", "sqlite_schema"]

def temporaryCatalogues : List String :=
  ["sqlite_temp_master", "sqlite_temp_schema"]

def isCatalogue (table : String) : Bool :=
  let table := folded table
  (mainCatalogues ++ temporaryCatalogues).contains table ||
    mainCatalogues.any (fun name => table = "main." ++ name) ||
    (mainCatalogues ++ temporaryCatalogues).any fun name => table = "temp." ++ name

inductive Column where
  | rowNumber
  | named (name : String)
  deriving DecidableEq, Repr

def Column.affinity : Column → Affinity
  | .rowNumber => .integer
  | .named name => if name = "rootpage" then .integer else .text

/-- The column that a name means. -/
def column? (name : String) : Option Column :=
  match tokens name with
  | [.word text] =>
    let name := folded text
    if rowNumberNames.contains name then some .rowNumber
    else if catalogueColumns.contains name then some (.named name)
    else none
  | _ => none

/-- The name of a column that the catalogue does not have. -/
def unknownColumn? (name : String) : Option String :=
  match tokens name with
  | [.word text] =>
    if (column? name).isSome || constantWords.contains (folded text) then none else some text
  | _ => none

end Folio.Database
