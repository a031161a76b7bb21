import Folio.Query.Statement

/-!
# Conditions of a statement

The conditions as the tree that a database reads from the text of a statement.
Parameters are known by their places among all parameters. Joined tests lean to the
left, and the two tests of a filled field join their neighbours one by one.
-/

namespace Folio.Database

open Query (Statement Fragment Field Comparison)

inductive Operand where
  | parameter (index : Nat)
  | emptyText
  deriving DecidableEq, Repr

inductive Condition where
  | known (holds : Bool)
  | isNull (field : Field)
  | isNotNull (field : Field)
  | compare (field : Field) (comparison : Comparison) (operand : Operand)
  | like (field : Field) (pattern : Operand)
  /-- The field is one of the operands. A single one is compared like any other. -/
  | within (field : Field) (operands : List Operand)
  | not (condition : Condition)
  | and (left right : Condition)
  | or (left right : Condition)
  deriving Repr

namespace Condition

/-- Conditions joined from the left. -/
def chain? (join : Condition → Condition → Condition) : List Condition → Option Condition
  | [] => none
  | first :: rest => some (rest.foldl join first)

def parameters (index count : Nat) : List Operand :=
  (List.range count).map fun k => .parameter (index + k)

/-- The conditions of a fragment whose parameters begin at `index`. -/
def parts (index : Nat) : Fragment → List Condition
  | .isNull field => [.isNull field]
  | .isNotNull field => [.isNotNull field]
  | .compare field comparison _ => [.compare field comparison (.parameter index)]
  | .contains field _ => [.like field (.parameter index)]
  | .containsAll field texts =>
    [(chain? .and ((parameters index texts.length).map (.like field))).getD (.known true)]
  | .oneOf field values =>
    [if values.isEmpty then .known false else .within field (parameters index values.length)]
  | .noneOf field values =>
    [if values.isEmpty then .known true
      else .not (.within field (parameters index values.length))]
  | .filled field => [.isNotNull field, .compare field .notEqual .emptyText]
  | .unfilled field => [.or (.isNull field) (.compare field .equal .emptyText)]

/-- The fragments with the places of their first parameters. -/
def numbered (index : Nat) : List Fragment → List (Nat × Fragment)
  | [] => []
  | fragment :: rest => (index, fragment) :: numbered (index + fragment.params.length) rest

def conjuncts (statement : Statement) : List (Nat × Fragment) :=
  numbered 0 statement.conjuncts

def disjuncts (statement : Statement) : List (Nat × Fragment) :=
  numbered (statement.conjuncts.flatMap Fragment.params).length statement.disjuncts

/-- The tree of all conditions of a statement, if it has any. -/
def ofStatement? (statement : Statement) : Option Condition :=
  let all := chain? .and ((conjuncts statement).flatMap fun (index, f) => parts index f)
  let any := chain? .or ((disjuncts statement).filterMap fun (index, f) =>
    chain? .and (parts index f))
  chain? .and (all.toList ++ any.toList)

/-- The conditions that have to hold together. -/
def terms : Condition → List Condition
  | .and left right => left.terms ++ right.terms
  | condition => [condition]

def fieldHeight : Field → Nat
  | .column _ => 1
  | .path .. => 2

/-- The nodes on the longest way through a condition. A single operand of a list is a
node more. -/
def height : Condition → Nat
  | .known _ => 2
  | .isNull field => fieldHeight field + 1
  | .isNotNull field => fieldHeight field + 1
  | .compare field _ _ => fieldHeight field + 1
  | .like field _ => fieldHeight field + 1
  | .within field operands => (if operands.length = 1 then 2 else fieldHeight field) + 1
  | .not condition => condition.height + 1
  | .and left right => max left.height right.height + 1
  | .or left right => max left.height right.height + 1

end Condition

end Folio.Database
