import Folio.Database.Fault
import Folio.Database.Stored
import Folio.Json.Reader

/-!
# Documents in stored values

A text may hold a JSON document, into which a path of keys leads. Numbers are
documents too. A step without a key is no step, but this is only seen when the path
has led to it.
-/

namespace Folio.Database

/-- The document that a value holds. Null holds none. -/
def documentOf : Stored → Except Fault (Option Json)
  | .null => .ok none
  | .integer n => .ok (some (.int n))
  | .real x => .ok (some (.number (.float x)))
  | .text s => ((Json.parse s).map some).mapError fun _ => .malformedDocument
  | .blob _ => .error .malformedDocument

/-- What the keys lead to. An error is a key without characters. -/
def followKeys : List String → Json → Except Unit (Option Json)
  | [], value => .ok (some value)
  | key :: rest, value =>
    if key.isEmpty then .error ()
    else
      match value with
      | .object members =>
        match Json.Members.get? members key with
        | some value => followKeys rest value
        | none => .ok none
      | _ => .ok none

/-- The keys of a path, which are separated by points. -/
def keysOf (path : String) : List String :=
  (path.toList.splitOn '.').map String.ofList

/-- The value at a path of a stored document; null if there is none. -/
def extract (value : Stored) (path : String) : Except Fault Stored := do
  match ← documentOf value with
  | none => return .null
  | some document =>
    match followKeys (keysOf path) document with
    | .error () => throw (.badPath path)
    | .ok none => return .null
    | .ok (some value) => return .bind value

end Folio.Database
