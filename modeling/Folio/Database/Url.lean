import Folio.Text.Encoding
import Folio.Text.Quoted

/-!
# Database URLs

A URL names a file or asks for a database in memory, and may carry parameters.
Parameters are looked at from the left, and the first bad one is reported.
-/

namespace Folio.Database

/-- What a URL asks for. -/
structure Target where
  file : String
  inMemory : Bool
  readOnly : Bool
  /-- Whether the URL promises that nobody changes the file. -/
  immutable : Bool
  /-- The layer that stores the file, if it is not the usual one. -/
  store : Option String
  deriving DecidableEq, Repr

inductive UrlFault where
  | badValue (parameter value : String)
  | unknownParameter (name : String)
  | badFileName (bytes : Text.BadBytes)
  deriving DecidableEq, Repr

def UrlFault.text : UrlFault → String
  | .badValue parameter value =>
    "unknown value " ++ Text.quoted value ++ " for `" ++ parameter ++ "`"
  | .unknownParameter name =>
    "unknown query parameter `" ++ name ++ "` while parsing connection URL"
  | .badFileName bytes => bytes.message

/-- The reasons behind a failure, the outermost first. -/
def UrlFault.causes (fault : UrlFault) : List String :=
  ["error with configuration: " ++ fault.text, fault.text]

/-- Takes a mark off the front of a text as often as it stands there. -/
def dropMarks (mark text : List Char) : List Char :=
  if _h : mark ≠ [] ∧ mark.isPrefixOf text then dropMarks mark (text.drop mark.length) else text
termination_by text.length
decreasing_by
  have hp := (List.isPrefixOf_iff_prefix.mp _h.2).length_le
  have := List.length_pos_iff.mpr _h.1
  rw [List.length_drop]
  omega

def Target.setMode (target : Target) (value : String) : Except UrlFault Target :=
  match value with
  | "ro" => .ok { target with readOnly := true }
  | "rw" => .ok target
  | "rwc" => .ok target
  | "memory" => .ok { target with inMemory := true }
  | value => .error (.badValue "mode" value)

def Target.setParameter (target : Target) (parameter : String × String) :
    Except UrlFault Target :=
  let (name, value) := parameter
  match name with
  | "mode" => target.setMode value
  | "cache" =>
    if value = "private" || value = "shared" then .ok target else .error (.badValue name value)
  | "immutable" =>
    if value = "true" || value = "1" then .ok { target with immutable := true }
    else if value = "false" || value = "0" then .ok { target with immutable := false }
    else .error (.badValue name value)
  | "vfs" => .ok { target with store := some value }
  | name => .error (.unknownParameter name)

def Target.ofUrl (url : String) : Except UrlFault Target := do
  let place := dropMarks "sqlite:".toList (dropMarks "sqlite://".toList url.toList)
  let file := place.takeWhile (· ≠ '?')
  let parameters := Text.formPairs ((place.dropWhile (· ≠ '?')).drop 1)
  let memory := file = ":memory:".toList
  let name ← (Text.fromUtf8 0 (Text.percentDecode file)).mapError .badFileName
  parameters.foldlM Target.setParameter
    { file := String.ofList name, inMemory := memory, readOnly := false, immutable := false,
      store := none }

end Folio.Database
