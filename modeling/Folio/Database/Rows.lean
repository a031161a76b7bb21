import Folio.Database.Constant

/-!
# Rows of a statement

On a database without tables of its own a statement either finds no row, or shows
the first thing that is wrong with it: the grammar, the table, the columns of the
conditions, those of the order, numbers, parameters, the page, and at last what goes
wrong in conditions that can be looked at without a row.
-/

namespace Folio.Database

open Query (Statement)

/-- The page of a statement has values unless binding ended before it. -/
def checkPage (binding : Binding) (statement : Statement) : Except Fault Unit :=
  if binding.placeholders.length < statement.params.length &&
      (statement.limit.isSome || statement.offset.isSome) then .error .missingBound
  else .ok ()

/-- The rows of a statement on an empty database. -/
def run (statement : Statement) : Except Fault (List Json) := do
  checkSyntax statement
  if !isCatalogue statement.table then throw (.noSuchTable statement.table)
  let condition := Condition.ofStatement? statement
  checkColumns condition
  checkTerms statement.order
  checkNumbers condition statement.order
  let binding ← bind statement
  checkPage binding statement
  checkConstants binding ((condition.map Condition.terms).getD [])
  return []

/-- The most columns that a row may have. -/
def mostColumns : Nat := 2000

/-- The row of a statement that has no table, but only the values of its columns. -/
def rowOf (columns : List (String × Stored)) : Except Fault Json :=
  if columns.isEmpty then .error .incomplete
  else if mostColumns < columns.length then .error .tooManyColumns
  else .ok (rowObject columns)

end Folio.Database
