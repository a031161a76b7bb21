import Folio.Json.Loose

/-!
# Text for HTML pages

Five characters have an entity; the rest of a text is left alone. Form input is
trimmed first, and only named fields of a record are touched.
-/

namespace Folio.Html

def entity : Char → List Char
  | '&' => "&amp;".toList
  | '<' => "&lt;".toList
  | '>' => "&gt;".toList
  | '"' => "&quot;".toList
  | '\'' => "&#039;".toList
  | c => [c]

def escapeChars (text : List Char) : List Char :=
  text.flatMap entity

def escape (text : String) : String :=
  String.ofList (escapeChars text.toList)

/-- The escaped text of a string. Other data has none. -/
def escapeValue : Json → String
  | .string s => escape s
  | _ => ""

/-- A form input, trimmed and escaped. An input that does not hold is empty. -/
def sanitize (value : Json) : String :=
  if value.truthy then String.ofList (escapeChars (Text.trim value.looseText)) else ""

/-- Sanitizes the named members that are strings, each from its first value. -/
def sanitizeMembers (members : Json.Members) (names : List String) : Json.Members :=
  names.foldl (fun result name =>
    match members.get? name with
    | some (.string s) => result.insert name (.string (sanitize (.string s)))
    | _ => result) members

theorem escapeChars_append (left right : List Char) :
    escapeChars (left ++ right) = escapeChars left ++ escapeChars right := by
  simp [escapeChars]

end Folio.Html
