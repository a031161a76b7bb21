import Folio.Database.Catalogue
import Folio.Database.Grammar

/-!
# Columns of statements on the catalogue

What the names of a statement lead to: columns of the catalogue, result columns by
number, or numbers.
-/

namespace Folio.Database

open Query (Statement Field OrderTerm)

/-- The part of a field that names a column. -/
def columnOf : Field → String
  | .column name => name
  | .path base _ => base

/-- Steps of the search for unknown columns. Which of several is reported depends on
where they stand: the search goes on behind some of them. -/
inductive Look where
  /-- Looks a column up, whatever was found before. -/
  | always (column : String)
  /-- Looks a column up if all were known before. -/
  | whileKnown (column : String)
  /-- Ends the search if a column was unknown. -/
  | stop

/-- The unknown column that is reported, where `found` is the one found before. -/
def Look.report (found : Option String) : List Look → Option String
  | [] => found
  | .always column :: rest => report ((unknownColumn? column).or found) rest
  | .whileKnown column :: rest => report (found.or (unknownColumn? column)) rest
  | .stop :: rest => if found.isSome then found else report found rest

def comparisonLooks (field : Field) : List Look :=
  [.stop, .whileKnown (columnOf field), .stop]

/-- The steps through a condition. -/
def Condition.looks : Condition → List Look
  | .known _ => [.stop]
  | .isNull field => [.always (columnOf field)]
  | .isNotNull field => [.always (columnOf field)]
  | .compare field _ _ => comparisonLooks field
  | .like field _ => [.whileKnown (columnOf field)]
  | .within field _ => comparisonLooks field
  | .not condition => .stop :: condition.looks
  | .and left right => .stop :: (left.looks ++ right.looks)
  | .or left right => .stop :: (left.looks ++ right.looks)

def checkColumns (condition : Option Condition) : Except Fault Unit :=
  match Look.report none ((condition.map Condition.looks).getD []) with
  | some name => .error (.noSuchColumn name)
  | none => .ok ()

/-- A number alone in an order stands for a result column, if it is not too large. -/
def position? : Field → Option Nat
  | .column name =>
    match tokens name with
    | [.number text] => (integerOf? text).filter (· ≤ Numeral.largest 31)
    | _ => none
  | .path .. => none

/-- The column that a term of an order names. Behind a negation the direction is the name. -/
def orderColumn (term : OrderTerm) : String :=
  match term.field with
  | .column name => if folded name = "not" then term.direction.sql else name
  | .path base _ => base

/-- A term of an order is a position or a column. Positions that no statement can have
are refused at once. -/
def checkTerm (number : Nat) (term : OrderTerm) : Except Fault Unit :=
  match position? term.field with
  | some n =>
    if n < 1 || Numeral.largest 16 < n then
      .error (.noSuchPosition number catalogueColumns.length)
    else .ok ()
  | none =>
    match unknownColumn? (orderColumn term) with
    | some name => .error (.noSuchColumn name)
    | none => .ok ()

/-- The other positions are looked at when all columns are known. -/
def checkPosition (number : Nat) (term : OrderTerm) : Except Fault Unit :=
  match position? term.field with
  | some n =>
    if catalogueColumns.length < n then .error (.noSuchPosition number catalogueColumns.length)
    else .ok ()
  | none => .ok ()

/-- The terms that an order may have. -/
def mostTerms : Nat := 2000

def checkTerms (order : List OrderTerm) : Except Fault Unit := do
  let terms := order.mapIdx fun index term => (index + 1, term)
  terms.forM fun (number, term) => checkTerm number term
  if mostTerms < order.length then throw .tooManyTerms
  terms.forM fun (number, term) => checkPosition number term

def isRowNumber : Field → Bool
  | .column name => column? name = some .rowNumber
  | .path .. => false

/-- Whether a field is never null, which the database knows before it looks. -/
def isNeverNull : Field → Bool
  | .column name =>
    match tokens name with
    | [.number _] => true
    | _ => isRowNumber (.column name)
  | .path .. => false

/-- The fields that a condition computes. -/
def Condition.computed : Condition → List Field
  | .known _ => []
  | .isNull field => if isNeverNull field then [] else [field]
  | .isNotNull field => if isNeverNull field then [] else [field]
  | .compare field _ _ => [field]
  | .like field _ => [field]
  | .within field _ => [field]
  | .not condition => condition.computed
  | .and left right => left.computed ++ right.computed
  | .or left right => left.computed ++ right.computed

/-- The column that a condition fixes to one value. -/
def Condition.fixes? : Condition → Option (Column × Operand)
  | .compare (.column name) .equal operand => (column? name).map (·, operand)
  | .within (.column name) [operand] => (column? name).map (·, operand)
  | _ => none

/-- A single row needs no order, nor do rows that come in the order of their numbers. -/
def needsOrder (terms : List Condition) (order : List OrderTerm) : Bool :=
  !(order.take 1).any (fun term => isRowNumber term.field) &&
    terms.all fun term => (term.fixes?.map Prod.fst) ≠ some .rowNumber

/-- A hexadecimal number that does not fit. -/
def oversized? (field : Field) : Option String :=
  match tokens (columnOf field) with
  | [.number text] =>
    let text := String.ofList (text.toList.filter (· ≠ '_'))
    if isHexNumber text && ((integerOf? text).getD 0) > Numeral.largest 64 then some text else none
  | _ => none

/-- Numbers are read before parameters. Of those that do not fit the last is reported. -/
def checkNumbers (condition : Option Condition) (order : List OrderTerm) : Except Fault Unit :=
  let terms := (condition.map Condition.terms).getD []
  let ordered := if needsOrder terms order then order.map OrderTerm.field else []
  match ((terms.flatMap Condition.computed ++ ordered).filterMap oversized?).getLast? with
  | some text => .error (.numberTooLarge text)
  | none => .ok ()

end Folio.Database
