import Folio.Json.Basic
import Folio.Text.Hex

/-!
# Written JSON

Two forms: compact, without any white space, and pretty, with one item a line
and two spaces for each level. Members are written in the order they have.
-/

namespace Folio.Json

/-- Only quotes, backslashes and control characters are escaped. -/
def escapedChar : Char → List Char
  | '"' => ['\\', '"']
  | '\\' => ['\\', '\\']
  | '\n' => ['\\', 'n']
  | '\r' => ['\\', 'r']
  | '\t' => ['\\', 't']
  | '\x08' => ['\\', 'b']
  | '\x0c' => ['\\', 'f']
  | c =>
    if c.toNat < 0x20 then ['\\', 'u', '0', '0'] ++ Text.hexByte c.toNat.toUInt8
    else [c]

def stringText (s : String) : List Char :=
  '"' :: s.toList.flatMap escapedChar ++ ['"']

def boolText (b : Bool) : List Char :=
  if b then ['t', 'r', 'u', 'e'] else ['f', 'a', 'l', 's', 'e']

def nullText : List Char :=
  ['n', 'u', 'l', 'l']

mutual
def compact : Json → List Char
  | .null => nullText
  | .bool b => boolText b
  | .number n => n.text
  | .string s => stringText s
  | .array items => '[' :: List.intercalate [','] (compactItems items) ++ [']']
  | .object members => '{' :: List.intercalate [','] (compactMembers members) ++ ['}']
def compactItems : List Json → List (List Char)
  | [] => []
  | item :: rest => compact item :: compactItems rest
def compactMembers : List (String × Json) → List (List Char)
  | [] => []
  | (key, value) :: rest => (stringText key ++ ':' :: compact value) :: compactMembers rest
end

def lineBreak (level : Nat) : List Char :=
  '\n' :: List.replicate (2 * level) ' '

/-- Brackets around one line for each entry; nothing between them without entries. -/
def bracketed (level : Nat) (left right : Char) (entries : List (List Char)) : List Char :=
  if entries.isEmpty then [left, right]
  else
    left :: lineBreak (level + 1) ++
      List.intercalate (',' :: lineBreak (level + 1)) entries ++ lineBreak level ++ [right]

mutual
def pretty (level : Nat) : Json → List Char
  | .null => nullText
  | .bool b => boolText b
  | .number n => n.text
  | .string s => stringText s
  | .array items => bracketed level '[' ']' (prettyItems (level + 1) items)
  | .object members => bracketed level '{' '}' (prettyMembers (level + 1) members)
def prettyItems (level : Nat) : List Json → List (List Char)
  | [] => []
  | item :: rest => pretty level item :: prettyItems level rest
def prettyMembers (level : Nat) : List (String × Json) → List (List Char)
  | [] => []
  | (key, value) :: rest =>
    (stringText key ++ ':' :: ' ' :: pretty level value) :: prettyMembers level rest
end

def toText (value : Json) : String :=
  String.ofList (compact value)

def toPrettyText (value : Json) : String :=
  String.ofList (pretty 0 value)

theorem compactItems_eq_map (items : List Json) : compactItems items = items.map compact := by
  induction items with
  | nil => rfl
  | cons item rest ih => simp [compactItems, ih]

theorem compactMembers_eq_map (members : List (String × Json)) :
    compactMembers members = members.map fun m => stringText m.1 ++ ':' :: compact m.2 := by
  induction members with
  | nil => rfl
  | cons member rest ih => simp [compactMembers, ih]

end Folio.Json
