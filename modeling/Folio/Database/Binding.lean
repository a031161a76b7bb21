import Folio.Database.Columns
import Folio.Database.Stored

/-!
# Binding parameters

A statement has placeholders, which take the values one after the other, and names
that are read as parameters, which choose a value by its number. Binding goes from
left to right and ends at a number for which there is no value.
-/

namespace Folio.Database

open Query (Statement Fragment Field)

inductive Parameter where
  | placeholder
  | chosen (text : String)
  deriving DecidableEq, Repr

/-- The parameter that a field is, if it is one. -/
def fieldParameter (field : Field) : List Parameter :=
  match tokens (columnOf field) with
  | [.parameter text] => [.chosen text]
  | _ => []

def fragmentParameters (fragment : Fragment) : List Parameter :=
  ((field? fragment).map fieldParameter).getD [] ++ fragment.params.map fun _ => .placeholder

/-- The parameters of a statement in their order. -/
def parametersOf (statement : Statement) : List Parameter :=
  (statement.conjuncts ++ statement.disjuncts).flatMap fragmentParameters ++
    statement.order.flatMap (fun term => fieldParameter term.field) ++
    statement.limit.toList.map (fun _ => .placeholder) ++
    statement.offset.toList.map (fun _ => .placeholder)

/-- The values of the first placeholders, and those of the chosen parameters. -/
structure Binding where
  placeholders : List Stored
  chosen : List (String × Stored)

def Binding.empty : Binding := ⟨[], []⟩

def Binding.placeholder (binding : Binding) (index : Nat) : Stored :=
  binding.placeholders.getD index .null

def Binding.choice (binding : Binding) (text : String) : Stored :=
  (binding.chosen.lookup text).getD .null

/-- The number behind the mark of a chosen parameter. -/
def chosenNumber? (text : String) : Option Nat :=
  match (Numeral.Range.unsigned 64).read (text.toList.drop 1) with
  | .ok n => some n.toNat
  | .error _ => none

/-- Binds the parameters to values. A parameter that was chosen before has its value. -/
def Binding.extend (values : List Stored) (binding : Binding) :
    List Parameter → Except Fault Binding
  | [] => .ok binding
  | .placeholder :: rest =>
    match values[binding.placeholders.length]? with
    | some value =>
      extend values { binding with placeholders := binding.placeholders ++ [value] } rest
    | none => .ok binding
  | .chosen text :: rest =>
    if (binding.chosen.lookup text).isSome then extend values binding rest
    else
      match chosenNumber? text with
      | none => .error (.namedParameter (String.ofList (text.toList.drop 1)))
      | some 0 => .error .noParameter
      | some (n + 1) =>
        match values[n]? with
        | some value =>
          extend values { binding with chosen := (text, value) :: binding.chosen } rest
        | none => .ok binding

def bind (statement : Statement) : Except Fault Binding :=
  Binding.empty.extend (bindings statement.params) (parametersOf statement)

end Folio.Database
