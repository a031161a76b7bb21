import Folio.Database.Condition
import Folio.Database.Name

/-!
# Grammar of statements

The grammar of a statement can go wrong only in its names and its page, or because
it is too large. Faults are looked for from left to right: the table, the conditions,
the order, and an offset without a limit.
-/

namespace Folio.Database

open Query (Statement Fragment Field OrderTerm)

/-- The first keyword behind the table, and whether it can be read as a name. -/
inductive Continuation where
  | nothing
  | keyword (word : String)
  /-- Only an offset follows, whose keyword is then taken for a name. -/
  | offset

def continuation (statement : Statement) : Continuation :=
  if !statement.conjuncts.isEmpty || !statement.disjuncts.isEmpty then .keyword "WHERE"
  else if !statement.order.isEmpty then .keyword "ORDER"
  else if statement.limit.isSome then .keyword "LIMIT"
  else if statement.offset.isSome then .offset
  else .nothing

/-- What is wrong when the table's name ends before it is complete. -/
def Continuation.refuse : Continuation → Fault
  | .nothing => .incomplete
  | .keyword word => .unexpected word
  | .offset => .unexpected "?"

/-- A table is a name, or two names with a point between them. -/
def checkTable (next : Continuation) : List Token → Except Fault Unit
  | [] => .error next.refuse
  | first :: rest =>
    if !first.isName then .error first.refuse
    else
      match rest with
      | [] => .ok ()
      | .point :: [] => .error next.refuse
      | .point :: second :: others =>
        if !second.isName then .error second.refuse
        else
          match others with
          | [] => .ok ()
          | other :: _ => .error other.refuse
      | other :: _ => .error other.refuse

/-- Where a column stands. -/
inductive Place where
  /-- First behind a parenthesis that is not a function's. -/
  | first
  | later
  /-- First behind a function's parenthesis. -/
  | argument
  deriving DecidableEq, Repr

/-- What a word begins that is no name where it stands. -/
inductive Opening where
  /-- A parenthesis has to follow. -/
  | parenthesis
  /-- A list has to follow that cannot begin with the token which does. -/
  | list
  /-- An operand has to follow, and then more. -/
  | operand
  /-- An operand has to follow, with which the expression may end. -/
  | negation
  /-- A name has to follow, and then more. -/
  | name
  deriving DecidableEq, Repr

/-- The words that begin something of their own everywhere. -/
def operandWords : List (String × Opening) :=
  [("case", .operand), ("cast", .parenthesis), ("exists", .parenthesis), ("not", .negation),
    ("raise", .parenthesis)]

/-- The words that begin something of their own at a place. -/
def openingWords : Place → List (String × Opening)
  | .first => [("select", .operand), ("values", .parenthesis), ("with", .name)] ++ operandWords
  | .later => operandWords
  | .argument => [("all", .list), ("distinct", .list), ("order", .list)] ++ operandWords

/-- Keywords of a statement that are names where nothing else can stand. -/
def looseKeywords : List String :=
  ["LIKE", "ASC", "DESC"]

def refuseNext : List String → Except Fault Unit
  | [] => .error .incomplete
  | token :: _ => .error (.unexpected token)

/-- Reads on behind a word that begins something. Of the tokens behind a column none can
complete it, but for a negated name at the end of a term. -/
def Opening.check (opening : Opening) (next : List String) : Except Fault Unit :=
  match opening with
  | .parenthesis | .list => refuseNext next
  | .name => refuseNext (if looseKeywords.contains (next.headD "") then next.drop 1 else next)
  | .operand | .negation =>
    let next := next.dropWhile (· = "NOT")
    if !looseKeywords.contains (next.headD "") then refuseNext next
    else if opening = .negation && next.headD "" ≠ "LIKE" then .ok ()
    else refuseNext (next.drop 1)

/-- Checks the name of a column, behind which the tokens `next` stand. -/
def checkWord (place : Place) (next : List String) (column : String) : Except Fault Unit :=
  match tokens column with
  | [.word text] =>
    match (openingWords place).lookup (folded text) with
    | some opening => opening.check next
    | none =>
      if reservedWords.contains (folded text) && !constantWords.contains (folded text) then
        .error (.unexpected text)
      else .ok ()
  | [.bad text] => .error (.unrecognized text)
  | _ => .ok ()

/-- The column of a path is a function's first argument. -/
def checkField (place : Place) (next : List String) : Field → Except Fault Unit
  | .column name => checkWord place next name
  | .path base _ => checkWord .argument [","] base

/-- Some fragments are constant and do not mention their field. -/
def field? : Fragment → Option Field
  | .containsAll field texts => if texts.isEmpty then none else some field
  | .oneOf field values => if values.isEmpty then none else some field
  | .noneOf field values => if values.isEmpty then none else some field
  | fragment => some fragment.field

/-- The tokens between the field of a fragment and the next name. -/
def tokensBehind : Fragment → List String
  | .compare _ comparison _ => [comparison.sql, "?"]
  | .contains _ _ => ["LIKE", "?"]
  | .containsAll _ _ => ["LIKE", "?"]
  | .oneOf _ _ => ["IN"]
  | .noneOf _ _ => ["NOT", "IN"]
  | .isNull _ | .isNotNull _ | .filled _ | .unfilled _ => ["IS"]

/-- Some fragments stand in parentheses of their own. -/
def isEnclosed : Fragment → Bool
  | .containsAll _ _ => true
  | .unfilled _ => true
  | _ => false

/-- The nodes that may lie on one way through a condition. -/
def greatestHeight : Nat := 1000

/-- The parameters that a statement may have. -/
def mostParameters : Nat := 32766

def checkHeight (height : Nat) : Except Fault Unit :=
  if greatestHeight < height then .error .tooDeep else .ok ()

def checkCount (count : Nat) : Except Fault Unit :=
  if mostParameters < count then .error .tooManyParameters else .ok ()

/-- The height of conditions of height `height` joined with one more. Nothing has no height. -/
def joinedHeight (height next : Nat) : Nat :=
  if height = 0 then next else max height next + 1

def checkFragment (place : Place) (index : Nat) (fragment : Fragment) : Except Fault Unit := do
  let place := if isEnclosed fragment then .first else place
  if let some field := field? fragment then checkField place (tokensBehind fragment) field
  (Condition.parts index fragment).forM fun part => checkHeight part.height
  checkCount (index + fragment.params.length)

/-- Checks the fragments of one group, and gives the height of their tree, where `join`
adds a fragment to it. -/
def checkGroup (join : Nat → List Nat → Nat) (fragments : List (Nat × Fragment)) :
    Except Fault Nat := do
  let (_, height) ← fragments.foldlM (fun (place, height) (index, fragment) => do
    checkFragment place index fragment
    let height := join height ((Condition.parts index fragment).map Condition.height)
    checkHeight height
    return (Place.later, height)) (Place.first, 0)
  return height

def checkConditions (statement : Statement) : Except Fault Unit := do
  let all ← checkGroup (fun height parts => parts.foldl joinedHeight height)
    (Condition.conjuncts statement)
  let any ← checkGroup (fun height parts => joinedHeight height (parts.foldl joinedHeight 0))
    (Condition.disjuncts statement)
  if all ≠ 0 && any ≠ 0 then checkHeight (joinedHeight all any)

/-- The keyword behind an order. -/
def pageTokens (statement : Statement) : List String :=
  if statement.limit.isSome then ["LIMIT"]
  else if statement.offset.isSome then ["OFFSET"]
  else []

/-- Checks the terms of an order, behind the last of which the tokens `page` stand. -/
def checkOrder (page : List String) : List OrderTerm → Except Fault Unit
  | [] => .ok ()
  | term :: rest => do
    let next := term.direction.sql :: if rest.isEmpty then page else [","]
    checkField .later next term.field
    checkOrder page rest

/-- An offset needs a limit in front of it. -/
def checkOffset (statement : Statement) : Except Fault Unit :=
  if statement.offset.isSome && statement.limit.isNone then
    match continuation statement with
    | .offset => .error (.unexpected "?")
    | _ => .error (.unexpected "OFFSET")
  else .ok ()

def checkSyntax (statement : Statement) : Except Fault Unit := do
  checkTable (continuation statement) (tokens statement.table)
  checkConditions statement
  checkOrder (pageTokens statement) statement.order
  checkOffset statement
  checkCount statement.params.length

end Folio.Database
