import Folio.Json.Basic
import Folio.Text.Blank

/-!
# Loose readings of JSON data

What a value counts as where a condition, a text or a list is wanted: filter
operands and template data come from callers that do not mind the type.
-/

namespace Folio.Json

/-- False, zero, the empty string and null do not hold; all else does, empty
arrays and objects included. -/
def truthy : Json → Bool
  | .null => false
  | .bool b => b
  | .number n => !n.isZero
  | .string s => !s.isEmpty
  | .array _ => true
  | .object _ => true

mutual
/-- Arrays are their items with commas between, where a null item is empty. -/
def looseText : Json → List Char
  | .null => ['n', 'u', 'l', 'l']
  | .bool b => if b then ['t', 'r', 'u', 'e'] else ['f', 'a', 'l', 's', 'e']
  | .number n => n.looseText
  | .string s => s.toList
  | .array items => List.intercalate [','] (looseTexts items)
  | .object _ => "[object Object]".toList
def looseTexts : List Json → List (List Char)
  | [] => []
  | item :: rest => (if item.isNull then [] else looseText item) :: looseTexts rest
end

@[simp] theorem looseText_string (s : String) : looseText (.string s) = s.toList := by
  unfold looseText
  rfl

@[simp] theorem looseText_array (items : List Json) :
    looseText (.array items) = List.intercalate [','] (looseTexts items) := by
  unfold looseText
  rfl

@[simp] theorem looseText_object (members : List (String × Json)) :
    looseText (.object members) = "[object Object]".toList := by
  unfold looseText
  rfl

theorem looseTexts_eq_map (items : List Json) :
    looseTexts items = items.map fun item => if item.isNull then [] else item.looseText := by
  induction items with
  | nil => rfl
  | cons item rest ih => rw [looseTexts, ih, List.map_cons]

/-- The pieces between commas, trimmed, without those that are then empty. -/
def pieces (text : List Char) : List (List Char) :=
  ((text.splitOn ',').map Text.trim).filter (!·.isEmpty)

/-- A string is the list of its pieces and a single value a list of itself. -/
def looseList : Json → List Json
  | .string s => (pieces s.toList).map fun piece => .string (String.ofList piece)
  | .array items => items
  | value => [value]

end Folio.Json
