import Folio.Json.Basic
import Folio.Json.Scalar

/-!
# Reading JSON data

Brackets may be nested only so deep. A list ends at its bracket, and a comma is
followed by an item: what follows the last item decides which fault is reported.
-/

namespace Folio.Json

open Reading

/-- How many brackets may be open at once. -/
def maxNesting : Nat := 127

/-- Whether another item of a list follows. -/
def hasItem (first : Bool) : Reading Bool := do
  match ← peekToken with
  | none => ended (.inside .list)
  | some ']' => return false
  | some ',' =>
    if first then return true
    else
      advance
      match ← peekToken with
      | some ']' => refuse .trailingComma
      | some _ => return true
      | none => ended .value
  | some _ => if first then return true else refuse (.expectedCommaOrEnd .list)

/-- Whether another member of an object follows; if so its key is next. -/
def hasMember (first : Bool) : Reading Bool := do
  match ← peekToken with
  | none => ended (.inside .object)
  | some '}' => return false
  | some ',' =>
    if first then refuse .keyNotString
    else
      advance
      match ← peekToken with
      | some '"' => return true
      | some '}' => refuse .trailingComma
      | some _ => refuse .keyNotString
      | none => ended .value
  | some c =>
    if !first then refuse (.expectedCommaOrEnd .object)
    else if c = '"' then return true
    else refuse .keyNotString

/-- Leaves a list. A record written as a list may have been left before its end. -/
def leaveList : Reading Unit := do
  match ← peekToken with
  | none => ended (.inside .list)
  | some ']' => advance
  | some ',' => do
    advance
    match ← peekToken with
    | some ']' => refuse .trailingComma
    | _ => refuse .trailingCharacters
  | some _ => refuse .trailingCharacters

def readKey : Reading String := do
  advance
  readString

def readColon : Reading Unit := do
  match ← peekToken with
  | none => ended (.inside .object)
  | some ':' => advance
  | some _ => refuse .expectedColon

/-- The items of a list whose bracket has been opened, up to its end. -/
def readItems {α : Type} (item : Reading α) : Reading (List α) := do
  let reversed ← iterate (fun before : List α => do
    if ← hasItem before.isEmpty then return some ((← item) :: before) else return none) []
  leaveList
  return reversed.reverse

/-- The members of an object whose bracket has been opened, up to its end. -/
def readMembers (value : Reading Json) : Reading Members := do
  let (_, members) ← iterate (fun (first, members) => do
    if ← hasMember first then
      let key ← readKey
      readColon
      return some (false, Members.insert members key (← value))
    else return none) (true, ([] : Members))
  advance
  return members

def readValue (allowance : Nat) : Reading Json := do
  match ← peekToken with
  | none => ended .value
  | some 'n' => do advance; readWord ['u', 'l', 'l']; return .null
  | some 't' => do advance; readWord ['r', 'u', 'e']; return .bool true
  | some 'f' => do advance; readWord ['a', 'l', 's', 'e']; return .bool false
  | some '"' => do advance; return .string (← readString)
  | some '[' =>
    match allowance with
    | 0 => refuse .tooDeep
    | rest + 1 => do advance; return .array (← readItems (readValue rest))
  | some '{' =>
    match allowance with
    | 0 => refuse .tooDeep
    | rest + 1 => do advance; return .object (← readMembers (readValue rest))
  | some c =>
    if c = '-' || c.isDigit then return .number (← readNumber) else refuse .expectedValue

def parse (text : String) : Except Failure Json :=
  run (readValue maxNesting) text

end Folio.Json
