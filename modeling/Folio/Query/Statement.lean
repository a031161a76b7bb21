import Folio.Query.Fragment
import Folio.Query.Operator

/-!
# Statements

A statement selects rows of one table. Its text holds no operand: each one has a
placeholder, and the parameters are listed in the order of the placeholders.
-/

namespace Folio.Query

structure OrderTerm where
  field : Field
  direction : Direction
  deriving DecidableEq, Repr

def OrderTerm.sql (term : OrderTerm) : String :=
  term.field.sql ++ " " ++ term.direction.sql

structure Statement where
  table : String
  conjuncts : List Fragment
  disjuncts : List Fragment
  order : List OrderTerm
  limit : Option Int
  offset : Option Int

/-- The fragments in one pair of parentheses; nothing without fragments. -/
def grouped (connective : String) (fragments : List Fragment) : List String :=
  if fragments.isEmpty then []
  else ["(" ++ joined connective (fragments.map Fragment.sql) ++ ")"]

def Statement.groups (statement : Statement) : List String :=
  grouped " AND " statement.conjuncts ++ grouped " OR " statement.disjuncts

/-- A keyword and what follows it; nothing when nothing follows. -/
def clauseSql (keyword separator : String) (parts : List String) : String :=
  if parts.isEmpty then "" else keyword ++ joined separator parts

def Statement.sql (statement : Statement) : String :=
  "SELECT * FROM " ++ statement.table ++
    clauseSql " WHERE " " AND " statement.groups ++
    clauseSql " ORDER BY " ", " (statement.order.map OrderTerm.sql) ++
    (if statement.limit.isSome then " LIMIT ?" else "") ++
    (if statement.offset.isSome then " OFFSET ?" else "")

def Statement.params (statement : Statement) : List Json :=
  statement.conjuncts.flatMap Fragment.params ++ statement.disjuncts.flatMap Fragment.params ++
    statement.limit.toList.map Json.int ++ statement.offset.toList.map Json.int

end Folio.Query
