import Folio.Json.Schema

/-!
# Reading a shape from text

A scalar of the wrong kind is read to its end before it is reported, a list or
an object is reported where it starts, and what a record lacks is reported
behind the record.
-/

namespace Folio.Json

open Reading

/-- Reports the value at the cursor, whose first character is `c`, as not the expected one. -/
def readUnexpected {α : Type} (expected : Expected) (c : Char) : Reading α := do
  match c with
  | 'n' => do advance; readWord ['u', 'l', 'l']; mismatch (.kind .null expected)
  | 't' => do advance; readWord ['r', 'u', 'e']; mismatch (.kind (.bool true) expected)
  | 'f' => do advance; readWord ['a', 'l', 's', 'e']; mismatch (.kind (.bool false) expected)
  | '"' => do advance; mismatch (.kind (.string (← readString)) expected)
  | '[' => mismatch (.kind .sequence expected)
  | '{' => mismatch (.kind .map expected)
  | c =>
    if c = '-' || c.isDigit then mismatch (.kind (.ofNumber (← readNumber)) expected)
    else refuse .expectedValue

def ofExcept {α : Type} : Except Mismatch α → Reading α
  | .ok value => pure value
  | .error m => mismatch m

/-- Reports a field that came before. The brace that may close the record is read first. -/
def refuseRepeated {α : Type} (name : String) : Reading α := do
  let next ← peekToken
  fail (.mismatch (.repeated name)) (if next = some '}' then 1 else 0)

mutual
/-- Reads a value of the schema; `allowance` brackets may still be opened. -/
def Schema.read : (schema : Schema) → Nat → Reading schema.Value
  | .any, allowance => readValue allowance
  | .string, _ => do
    match ← peekToken with
    | none => ended .value
    | some '"' => do advance; readString
    | some c => readUnexpected .string c
  | .integer, _ => do
    match ← peekToken with
    | none => ended .value
    | some c =>
      if c = '-' || c.isDigit then ofExcept (toInteger (← readNumber))
      else readUnexpected .integer c
  | .optional schema, allowance => do
    match ← peekToken with
    | some 'n' => do advance; readWord ['u', 'l', 'l']; return none
    | _ => return some (← schema.read allowance)
  | .list schema, allowance => do
    match ← peekToken with
    | none => ended .value
    | some '[' =>
      match allowance with
      | 0 => refuse .tooDeep
      | rest + 1 => do advance; readItems (schema.read rest)
    | some c => readUnexpected .sequence c
  | .record name fields, allowance => do
    match ← peekToken with
    | none => ended .value
    | some '[' =>
      match allowance with
      | 0 => refuse .tooDeep
      | rest + 1 => do
        advance
        let values ← fields.readList rest 0
        leaveList
        match values with
        | .ok values => return values
        | .error count => mismatch (.tooShort count name fields.size)
    | some '{' =>
      match allowance with
      | 0 => refuse .tooDeep
      | rest + 1 => do
        advance
        let (_, met) ← iterate (fun (first, met) => do
          if ← hasMember first then return some (false, ← fields.readMember rest met (← readKey))
          else return none) (true, fields.noneMet)
        advance
        ofExcept (fields.complete met)
    | some c => readUnexpected (.record name) c
/-- Reads the rest of a member whose key has been read. -/
def Layout.readMember : (fields : Layout) → Nat → fields.Partial → String → Reading fields.Partial
  | .nil, _, (), _ => do readColon; skipValue
  | .cons name _ schema rest, allowance, (value, others), key =>
    if key = name then
      match value with
      | some _ => refuseRepeated name
      | none => do readColon; return (some (← schema.read allowance), others)
    else do return (value, ← rest.readMember allowance others key)
/-- Reads the fields in order after `count` others. The error is the number of items
of a list that lacks a required field. -/
def Layout.readList : (fields : Layout) → Nat → Nat → Reading (Except Nat fields.Values)
  | .nil, _, _ => return .ok ()
  | .cons _ false schema rest, allowance, count => do
    if ← hasItem (count = 0) then
      let value ← schema.read allowance
      return (← rest.readList allowance (count + 1)).map (some value, ·)
    else return (← rest.readList allowance count).map (none, ·)
  | .cons _ true schema rest, allowance, count => do
    if ← hasItem (count = 0) then
      let value ← schema.read allowance
      return (← rest.readList allowance (count + 1)).map (value, ·)
    else return .error count
end

def Schema.parse (schema : Schema) (text : String) : Except Failure schema.Value :=
  run (schema.read maxNesting) text

end Folio.Json
