import Folio.Json.Skip

/-!
# Shapes of JSON input

A schema says which data is wanted, and gives the type of what is read. Records
are written as objects, where unknown keys are ignored, or as lists of their
fields in order. A schema is read in two ways, with the same mismatches: from
data, and straight from text, where every fault has a place.
-/

namespace Folio.Json

mutual
inductive Schema where
  | any
  | string
  | integer
  | optional (schema : Schema)
  | list (schema : Schema)
  | record (name : String) (fields : Layout)
/-- The fields of a record. A field that is not required may be absent. -/
inductive Layout where
  | nil
  | cons (name : String) (required : Bool) (schema : Schema) (rest : Layout)
end

mutual
abbrev Schema.Value : Schema → Type
  | .any => Json
  | .string => String
  | .integer => Int
  | .optional schema => Option schema.Value
  | .list schema => List schema.Value
  | .record _ fields => fields.Values
abbrev Layout.Values : Layout → Type
  | .nil => Unit
  | .cons _ true schema rest => schema.Value × rest.Values
  | .cons _ false schema rest => Option schema.Value × rest.Values
end

/-- The fields of a record met so far. -/
abbrev Layout.Partial : Layout → Type
  | .nil => Unit
  | .cons _ _ schema rest => Option schema.Value × rest.Partial

def Layout.size : Layout → Nat
  | .nil => 0
  | .cons _ _ _ rest => rest.size + 1

def Layout.noneMet : (fields : Layout) → fields.Partial
  | .nil => ()
  | .cons _ _ _ rest => (none, rest.noneMet)

/-- All fields, or the first required one that was not met. -/
def Layout.complete : (fields : Layout) → fields.Partial → Except Mismatch fields.Values
  | .nil, () => .ok ()
  | .cons _ false _ rest, (value, others) => do return (value, ← rest.complete others)
  | .cons name true _ rest, (value, others) => do
    match value with
    | none => throw (.missing name)
    | some value => return (value, ← rest.complete others)

def toInteger (n : Number) : Except Mismatch Int :=
  match n with
  | .int n => if Number.integerLimit < n then .error (.range n) else .ok n
  | .float x => .error (.kind (.float x) .integer)

def found : Json → Found
  | .null => .null
  | .bool b => .bool b
  | .number n => .ofNumber n
  | .string s => .string s
  | .array _ => .sequence
  | .object _ => .map

def decodeItems {α : Type} (item : Json → Except Mismatch α) (items : List Json) :
    Except Mismatch (List α) :=
  items.mapM item

/-- Members of data are met in the order of their keys. -/
def decodeMembers {σ : Type} (member : σ → String → Json → Except Mismatch σ) (state : σ)
    (members : Members) : Except Mismatch σ :=
  members.foldlM (fun state m => member state m.1 m.2) state

mutual
def Schema.decode : (schema : Schema) → Json → Except Mismatch schema.Value
  | .any, value => .ok value
  | .string, value =>
    match value with
    | .string s => .ok s
    | value => .error (.kind (found value) .string)
  | .integer, value =>
    match value with
    | .number n => toInteger n
    | value => .error (.kind (found value) .integer)
  | .optional schema, value =>
    match value with
    | .null => .ok none
    | value => do return some (← schema.decode value)
  | .list schema, value =>
    match value with
    | .array items => decodeItems schema.decode items
    | value => .error (.kind (found value) .sequence)
  | .record name fields, value =>
    match value with
    | .object members => do
      fields.complete (← decodeMembers fields.decodeMember fields.noneMet members)
    | .array items => fields.decodeList name fields.size items.length items
    | value => .error (.kind (found value) (.record name))
def Layout.decodeMember : (fields : Layout) → fields.Partial → String → Json →
    Except Mismatch fields.Partial
  | .nil, (), _, _ => .ok ()
  | .cons name _ schema rest, (value, others), key, member =>
    if key = name then do return (some (← schema.decode member), others)
    else do return (value, ← rest.decodeMember others key member)
def Layout.decodeList : (fields : Layout) → String → Nat → Nat → List Json →
    Except Mismatch fields.Values
  | .nil, _, _, length, items => if items.isEmpty then .ok () else .error (.tooLong length)
  | .cons _ false schema rest, record, size, length, items =>
    match items with
    | [] => do return (none, ← rest.decodeList record size length [])
    | item :: items => do
      return (some (← schema.decode item), ← rest.decodeList record size length items)
  | .cons _ true schema rest, record, size, length, items =>
    match items with
    | [] => .error (.tooShort length record size)
    | item :: items => do
      return (← schema.decode item, ← rest.decodeList record size length items)
end

end Folio.Json
