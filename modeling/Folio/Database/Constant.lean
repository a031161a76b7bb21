import Folio.Database.Binding
import Folio.Database.Document

/-!
# Constant conditions

Conditions that mention no column are looked at before the first row, from left to
right, until one does not hold. A column that another condition fixes to one value
counts as that value. So a statement can fail on a table without rows.
-/

namespace Folio.Database

open Query (Field)

/-- What is known before the first row: the parameters, and the fixed columns. -/
structure Known where
  binding : Binding
  fixed : Column → Option Operand

namespace Known

def operand (known : Known) : Operand → Stored
  | .parameter index => known.binding.placeholder index
  | .emptyText => .text ""

/-- The words that stand for the time are some time of day, which no operand is. -/
def wordValue (word : String) : Stored :=
  match folded word with
  | "true" => .integer 1
  | "false" => .integer 0
  | "current_date" => .text "2000-01-01"
  | "current_time" => .text "00:00:00"
  | "current_timestamp" => .text "2000-01-01 00:00:00"
  | _ => .null

/-- The value of a column's name, if it is known. -/
def column? (known : Known) (name : String) : Option Stored :=
  match Database.column? name with
  | some column =>
    (known.fixed column).map fun operand => column.affinity.keep (known.operand operand)
  | none =>
    match tokens name with
    | [.number text] => some (numberValue text)
    | [.parameter text] => some (known.binding.choice text)
    | [.word text] => some (wordValue text)
    | _ => none

def field? (known : Known) : Field → Option (Except Fault Stored)
  | .column name => (known.column? name).map .ok
  | .path base steps => (known.column? base).map fun value => extract value steps

/-- Fields whose values are not known count as null here; they are not asked for. -/
def field (known : Known) (field : Field) : Except Fault Stored :=
  (known.field? field).getD (.ok .null)

def isConstant (known : Known) (condition : Condition) : Bool :=
  condition.computed.all fun field => (known.field? field).isSome

end Known

/-- The class that the field of a comparison prefers. -/
def fieldAffinity? : Field → Option Affinity
  | .column name => (column? name).map Column.affinity
  | .path .. => none

def likeStored (pattern value : Stored) : Except Fault (Option Bool) :=
  match pattern.toText, value.toText with
  | .text pattern, .text value =>
    if longestPattern < pattern.utf8ByteSize then .error .patternTooLong
    else .ok (some (textMatches pattern value))
  | _, _ => .ok none

/-- Whether one of the answers is yes. Without a yes an unknown one makes it unknown. -/
def anyOf (answers : List (Option Bool)) : Option Bool :=
  if answers.contains (some true) then some true
  else if answers.contains none then none
  else some false

/-- What a constant condition says. It is looked at no further than is needed. -/
def Condition.answer (known : Known) : Condition → Except Fault (Option Bool)
  | .known holds => .ok (some holds)
  | .isNull field =>
    if isNeverNull field then .ok (some false)
    else (known.field field).map fun value => some value.isNull
  | .isNotNull field =>
    if isNeverNull field then .ok (some true)
    else (known.field field).map fun value => some (!value.isNull)
  | .compare field comparison operand => do
    return compareStored (fieldAffinity? field) comparison (← known.field field)
      (known.operand operand)
  | .like field pattern => do
    likeStored (known.operand pattern) (← known.field field)
  | .within field operands => do
    let value ← known.field field
    return anyOf (operands.map fun operand =>
      compareStored (fieldAffinity? field) .equal value (known.operand operand))
  | .not condition => do
    return (← condition.answer known).map (!·)
  | .and left right => do
    match ← left.answer known with
    | some true => right.answer known
    | other => return other
  | .or left right => do
    match ← left.answer known with
    | some true => return some true
    | _ => right.answer known

/-- What the other conditions fix a column to. Of several the last one counts. -/
def fixedBy (terms : List Condition) (index : Nat) (column : Column) : Option Operand :=
  match (terms.zipIdx.filterMap fun (term, place) => term.fixes?.map (·, place)).reverse.find?
      fun (fixes, _) => fixes.1 = column with
  | some ((_, operand), place) => if place = index then none else some operand
  | none => none

/-- Looks at the constant ones among conditions that have to hold together. -/
def checkConstants (binding : Binding) (terms : List Condition) : Except Fault Unit :=
  go terms.zipIdx
where
  go : List (Condition × Nat) → Except Fault Unit
    | [] => .ok ()
    | (term, index) :: rest => do
      let known : Known := ⟨binding, fixedBy terms index⟩
      if known.isConstant term then
        match ← term.answer known with
        | some true => go rest
        | _ => return
      else go rest

end Folio.Database
