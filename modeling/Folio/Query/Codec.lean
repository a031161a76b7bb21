import Folio.Json.Printer
import Folio.Json.Schema.Reader
import Folio.Query.Filter
import Folio.Query.Rejection

/-!
# Filters as JSON

A filter is read from data or from text. The conditions of a group are read one
by one, so a bad one does not take the others with it. Written filters leave out
what is absent or empty, and never hold the messages of rejected parts.
-/

namespace Folio.Query

open Json (Schema Layout Mismatch Failure)

abbrev conditionSchema : Schema :=
  .record "FilterCondition"
    (.cons "field" true .string (.cons "operator" true .string (.cons "value" false .any .nil)))

abbrev sortKeySchema : Schema :=
  .record "SortSpec" (.cons "field" true .string (.cons "order" false .string .nil))

abbrev groupSchema : Schema :=
  .record "RawGroup" (.cons "and" false .any (.cons "or" false .any .nil))

abbrev filterSchema : Schema :=
  .record "QueryFilter"
    (.cons "where" false (.optional groupSchema)
      (.cons "limit" false (.optional .integer)
        (.cons "offset" false (.optional .integer)
          (.cons "sort" false (.list sortKeySchema) .nil))))

def Condition.ofFields : conditionSchema.Value → Condition
  | (field, operator, operand, ()) => ⟨field, .ofName operator, operand.getD .null⟩

def SortKey.ofFields : sortKeySchema.Value → SortKey
  | (field, order, ()) => ⟨field, (order.map SortOrder.ofName).getD (.valid .ascending)⟩

def Condition.decode (value : Json) : Except Mismatch Condition :=
  (conditionSchema.decode value).map .ofFields

def SortKey.decode (value : Json) : Except Mismatch SortKey :=
  (sortKeySchema.decode value).map .ofFields

/-- The conditions of one list of a group, where null is an empty list. -/
def Clause.read (clause : Clause) : Json → Sorted Condition
  | .null => ⟨[], []⟩
  | .array items => .ofItems Condition.decode (Rejection.condition clause) items
  | _ => ⟨[], [.conditions clause]⟩

def Group.ofFields : groupSchema.Value → Group
  | (conjuncts, disjuncts, ()) =>
    let conjuncts := Clause.conjuncts.read (conjuncts.getD .null)
    let disjuncts := Clause.disjuncts.read (disjuncts.getD .null)
    { conjuncts := conjuncts.kept
      disjuncts := disjuncts.kept
      rejected := (conjuncts.rejected ++ disjuncts.rejected).map Rejection.message }

def Filter.ofFields : filterSchema.Value → Filter
  | (group, limit, offset, sort, ()) =>
    { group := group.join.map .ofFields
      limit := limit.join
      offset := offset.join
      sort := (sort.getD []).map .ofFields
      rejected := [] }

def Group.parse (text : String) : Except Failure Group :=
  (groupSchema.parse text).map .ofFields

def Filter.decode (value : Json) : Except Mismatch Filter :=
  (filterSchema.decode value).map .ofFields

def Filter.parse (text : String) : Except Failure Filter :=
  (filterSchema.parse text).map .ofFields

def Condition.encode (condition : Condition) : Json :=
  .object [("field", .string condition.field), ("operator", .string condition.operator.name),
    ("value", condition.operand)]

def SortKey.encode (key : SortKey) : Json :=
  .object [("field", .string key.field), ("order", .string key.order.name)]

/-- A member for a list, unless the list is empty. -/
def listMember (key : String) (items : List Json) : Json.Members :=
  if items.isEmpty then [] else [(key, .array items)]

/-- A member for a value, if there is one. -/
def optionalMember (key : String) (value : Option Json) : Json.Members :=
  (value.map fun value => (key, value)).toList

def Group.encode (group : Group) : Json :=
  .object (listMember "and" (group.conjuncts.map Condition.encode) ++
    listMember "or" (group.disjuncts.map Condition.encode))

def Filter.encode (filter : Filter) : Json :=
  .object (optionalMember "limit" (filter.limit.map Json.int) ++
    optionalMember "offset" (filter.offset.map Json.int) ++
    listMember "sort" (filter.sort.map SortKey.encode) ++
    optionalMember "where" (filter.group.map Group.encode))

end Folio.Query
