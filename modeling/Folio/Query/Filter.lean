import Folio.Json.Basic
import Folio.Query.Operator

/-!
# Filters

What a caller asks of a table: conditions, an order and a page. A condition or
an order without a meaning can stand in a filter. Parts that could not even be
read are kept as messages.
-/

namespace Folio.Query

structure Condition where
  field : String
  operator : Operator
  operand : Json

/-- Holds for a row when every conjunct and at least one disjunct does. A list
without conditions asks nothing. -/
structure Group where
  conjuncts : List Condition
  disjuncts : List Condition
  rejected : List String

def Group.empty : Group := ⟨[], [], []⟩

structure SortKey where
  field : String
  order : SortOrder
  deriving DecidableEq, Repr

structure Filter where
  group : Option Group
  limit : Option Int
  offset : Option Int
  sort : List SortKey
  rejected : List String

def Filter.empty : Filter := ⟨none, none, none, [], []⟩

end Folio.Query
