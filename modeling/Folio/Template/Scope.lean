import Folio.Json.Basic
import Folio.Numeral

/-!
# What a name means in a template

A scope is the data of a page, with one layer for each loop around the current
place. In a layer the loop's own names come first, then the fields of the
element, then the element itself as `.`, and then the layers outside.
-/

namespace Folio.Template

inductive Scope where
  | root (data : Json)
  /-- An element at `index` in a list of `size` elements. -/
  | item (element : Json) (index size : Nat) (outer : Scope)

/-- Array positions are plain numbers of 64 bits. -/
def position? (key : String) : Option Nat :=
  match (Numeral.Range.unsigned 64).read key.toList with
  | .ok n => some n.toNat
  | .error _ => none

/-- One step into data: by key into an object, by position into an array. -/
def child? (value : Json) (key : String) : Option Json :=
  match value with
  | .object members => Json.Members.get? members key
  | .array items => (position? key).bind fun n => items[n]?
  | _ => none

def field? (value : Json) (name : String) : Option Json :=
  match value with
  | .object members => Json.Members.get? members name
  | _ => none

/-- The names that a loop gives to its current turn. -/
def loopName? (index size : Nat) (name : String) : Option Json :=
  match name with
  | "@index" => some (.int index)
  | "@first" => some (.bool (index = 0))
  | "@last" => some (.bool (index + 1 = size))
  | _ => none

namespace Scope

def name? (scope : Scope) (name : String) : Option Json :=
  match scope with
  | .root data => child? data name
  | .item element index size outer =>
    match loopName? index size name with
    | some value => some value
    | none =>
      match field? element name with
      | some value => some value
      | none => if name = "." then some element else outer.name? name

/-- The steps of a dotted path. A lone point is one step. -/
def steps (path : List Char) : List String :=
  if path = ['.'] then ["."] else (path.splitOn '.').map String.ofList

def walk (value : Json) (keys : List String) : Option Json :=
  keys.foldlM child? value

/-- The data that a path leads to. -/
def resolve (scope : Scope) (path : List Char) : Option Json :=
  if path.isEmpty then none
  else
    match steps path with
    | [] => none
    | first :: keys => (scope.name? first).bind fun value => walk value keys

end Scope

end Folio.Template
