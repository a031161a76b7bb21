import Folio.Query.Filter
import Folio.Query.Statement

/-!
# From filters to statements

Compiling never fails. A condition or a sort key without a meaning leaves no
trace in the statement and is reported instead.
-/

namespace Folio.Query

inductive Issue where
  | invalidField (name : String)
  | invalidOrder (text : String)
  | unknownOperator (name : String)
  | unsupportedOperator (operator : Operator)
  deriving DecidableEq, Repr

def Issue.message : Issue → String
  | .invalidField name => "Invalid field name: " ++ name
  | .invalidOrder text => "Invalid sort order: " ++ text
  | .unknownOperator name => "Unknown operator: " ++ name
  | .unsupportedOperator operator =>
    "'" ++ operator.name ++
      "' operator not supported in SQLite. Use spatial extension or application-level filtering."

def comparing (field : Field) (comparison : Comparison) (operand : Json) : Except Issue Fragment :=
  .ok (.compare field comparison operand)

/-- The test that an operator makes on a field. The field is not looked at. -/
def Operator.compile (operator : Operator) (field : Field) (operand : Json) :
    Except Issue Fragment :=
  match operator with
  | .equals => if operand.isNull then .ok (.isNull field) else comparing field .equal operand
  | .notEquals =>
    if operand.isNull then .ok (.isNotNull field) else comparing field .notEqual operand
  | .greaterThan => comparing field .greater operand
  | .greaterThanEqual => comparing field .greaterOrEqual operand
  | .lessThan => comparing field .less operand
  | .lessThanEqual => comparing field .lessOrEqual operand
  | .like => .ok (.containsAll field ((Text.words operand.looseText).map String.ofList))
  | .contains => .ok (.contains field (String.ofList operand.looseText))
  | .oneOf => .ok (.oneOf field operand.looseList)
  | .noneOf => .ok (.noneOf field operand.looseList)
  | .allOf =>
    .ok (.containsAll field (operand.looseList.map fun item => String.ofList item.looseText))
  | .filled => .ok (if operand.truthy then .filled field else .unfilled field)
  | .near | .within | .intersects => .error (.unsupportedOperator operator)
  | .unknown name => .error (.unknownOperator name)

def fieldOf (name : String) : Except Issue Field :=
  match Field.ofName? name with
  | some field => .ok field
  | none => .error (.invalidField name)

def Condition.compile (condition : Condition) : Except Issue Fragment := do
  let field ← fieldOf condition.field
  condition.operator.compile field condition.operand

def SortKey.compile (key : SortKey) : Except Issue OrderTerm := do
  let field ← fieldOf key.field
  match key.order with
  | .valid direction => return ⟨field, direction⟩
  | .invalid text => throw (.invalidOrder text)

/-- What compiles of a list, in its order. -/
def compiled {α β : Type} (compile : α → Except Issue β) (items : List α) : List β :=
  items.filterMap fun item => (compile item).toOption

def issueOf {β : Type} : Except Issue β → Option Issue
  | .ok _ => none
  | .error issue => some issue

/-- What does not compile of a list, in its order. -/
def issues {α β : Type} (compile : α → Except Issue β) (items : List α) : List Issue :=
  items.filterMap fun item => issueOf (compile item)

/-- Zero asks for nothing. -/
def nonzero (n : Option Int) : Option Int :=
  n.filter (· ≠ 0)

def Filter.conjuncts (filter : Filter) : List Condition :=
  (filter.group.map Group.conjuncts).getD []

def Filter.disjuncts (filter : Filter) : List Condition :=
  (filter.group.map Group.disjuncts).getD []

def Filter.statement (filter : Filter) (table : String) : Statement where
  table := cleanName table
  conjuncts := compiled Condition.compile filter.conjuncts
  disjuncts := compiled Condition.compile filter.disjuncts
  order := compiled SortKey.compile filter.sort
  limit := nonzero filter.limit
  offset := nonzero filter.offset

def Filter.issues (filter : Filter) : List Issue :=
  Query.issues Condition.compile filter.conjuncts ++
    Query.issues Condition.compile filter.disjuncts ++ Query.issues SortKey.compile filter.sort

/-- All messages: of parts that could not be read, then of parts that do not compile. -/
def Filter.errors (filter : Filter) : List String :=
  filter.rejected ++ (filter.group.map Group.rejected).getD [] ++
    filter.issues.map Issue.message

end Folio.Query
