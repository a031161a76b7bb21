/-!
# Operators and sort orders

A filter names them by text. Any text is accepted while a filter is read: a name
without a meaning is kept, so that compiling the filter can report it and writing
the filter gives it back.
-/

namespace Folio.Query

inductive Operator where
  | equals
  | notEquals
  | greaterThan
  | greaterThanEqual
  | lessThan
  | lessThanEqual
  /-- Every word of the operand occurs in the field. -/
  | like
  | contains
  | oneOf
  | noneOf
  /-- Every item of the operand occurs in the field. -/
  | allOf
  | filled
  | near
  | within
  | intersects
  | unknown (name : String)
  deriving DecidableEq, Repr

def Operator.name : Operator → String
  | .equals => "equals"
  | .notEquals => "not_equals"
  | .greaterThan => "greater_than"
  | .greaterThanEqual => "greater_than_equal"
  | .lessThan => "less_than"
  | .lessThanEqual => "less_than_equal"
  | .like => "like"
  | .contains => "contains"
  | .oneOf => "in"
  | .noneOf => "not_in"
  | .allOf => "all"
  | .filled => "exists"
  | .near => "near"
  | .within => "within"
  | .intersects => "intersects"
  | .unknown name => name

def Operator.ofName (name : String) : Operator :=
  match name with
  | "equals" => .equals
  | "not_equals" => .notEquals
  | "greater_than" => .greaterThan
  | "greater_than_equal" => .greaterThanEqual
  | "less_than" => .lessThan
  | "less_than_equal" => .lessThanEqual
  | "like" => .like
  | "contains" => .contains
  | "in" => .oneOf
  | "not_in" => .noneOf
  | "all" => .allOf
  | "exists" => .filled
  | "near" => .near
  | "within" => .within
  | "intersects" => .intersects
  | name => .unknown name

def Operator.isKnown : Operator → Bool
  | .unknown _ => false
  | _ => true

theorem Operator.name_ofName (name : String) : (ofName name).name = name := by
  unfold ofName
  split <;> rfl

inductive Direction where
  | ascending
  | descending
  deriving DecidableEq, Repr

def Direction.name : Direction → String
  | .ascending => "asc"
  | .descending => "desc"

def Direction.sql : Direction → String
  | .ascending => "ASC"
  | .descending => "DESC"

inductive SortOrder where
  | valid (direction : Direction)
  | invalid (text : String)
  deriving DecidableEq, Repr

def SortOrder.name : SortOrder → String
  | .valid direction => direction.name
  | .invalid text => text

def lowered (text : String) : String :=
  String.ofList (text.toList.map Char.toLower)

/-- The case of ASCII letters is free. -/
def SortOrder.ofName (name : String) : SortOrder :=
  if lowered name = "asc" then .valid .ascending
  else if lowered name = "desc" then .valid .descending
  else .invalid name

def SortOrder.direction? : SortOrder → Option Direction
  | .valid direction => some direction
  | .invalid _ => none

theorem SortOrder.ofName_name (direction : Direction) :
    ofName direction.name = .valid direction := by
  cases direction <;> decide

/-- Writing an order that was read changes at most its case. -/
theorem SortOrder.ofName_name_ofName (name : String) :
    ofName (ofName name).name = ofName name := by
  by_cases ha : lowered name = "asc"
  · rw [show ofName name = .valid .ascending from if_pos ha]
    exact ofName_name .ascending
  · by_cases hd : lowered name = "desc"
    · rw [show ofName name = .valid .descending from by simp [ofName, hd]]
      exact ofName_name .descending
    · rw [show ofName name = .invalid name from by simp [ofName, ha, hd]]
      simp [SortOrder.name, ofName, ha, hd]

end Folio.Query
