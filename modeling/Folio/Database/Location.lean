import Folio.Database.Fault
import Folio.Database.Url

/-!
# Where a database is

The name in a URL may be a URI of its own, with options that change how the file
is opened. A URL that promises something about the file, or names the layer that
stores it, gives the name as it is.
-/

namespace Folio.Database

/-- How a file may be opened, from the least to the most. -/
inductive Access where
  | readOnly
  | readWrite
  | create
  deriving DecidableEq, Repr

def Access.rank : Access → Nat
  | .readOnly => 0
  | .readWrite => 1
  | .create => 2

structure Location where
  file : String
  access : Access
  inMemory : Bool
  /-- The layer that stores the file, if it is not the usual one. -/
  store : Option String
  deriving DecidableEq, Repr

/-- An option may take rights away, but not give any. A database in memory has all of them. -/
def Location.restrict (place : Location) (access : Access) (value : String) :
    Except Fault Location :=
  if place.inMemory || access.rank ≤ place.access.rank then
    .ok { place with access, inMemory := false }
  else .error (.accessNotAllowed value)

def Location.setAccess (place : Location) (value : String) : Except Fault Location :=
  match value with
  | "ro" => place.restrict .readOnly value
  | "rw" => place.restrict .readWrite value
  | "rwc" => place.restrict .create value
  | "memory" => .ok { place with inMemory := true }
  | value => .error (.noSuchMode "access" value)

def Location.setOption (place : Location) (option : String × String) : Except Fault Location :=
  let (name, value) := option
  match name with
  | "vfs" => .ok { place with store := some value }
  | "mode" => place.setAccess value
  | "cache" =>
    if value = "shared" || value = "private" then .ok place
    else .error (.noSuchMode "cache" value)
  | _ => .ok place

/-- A text up to the first null character, which ends every name that the database sees. -/
def upToNull (text : List Char) : List Char :=
  text.takeWhile (· ≠ '\x00')

/-- A part of a URI without its percent signs. -/
def partText (part : List Char) : String :=
  String.ofList (upToNull (Text.fromUtf8Lossy (Text.percentDecode part)))

/-- The options of a URI in their order. One without a name is no option. -/
def uriOptions (text : List Char) : List (String × String) :=
  ((text.splitOn '&').map fun part =>
    (partText (part.takeWhile (· ≠ '=')), partText ((part.dropWhile (· ≠ '=')).drop 1))).filter
      (·.1 ≠ "")

/-- A URI may name the host of its file, which is the one the program runs on. -/
def dropHost : List Char → Except Fault (List Char)
  | '/' :: '/' :: rest =>
    let host := rest.takeWhile (· ≠ '/')
    if host = [] || host = "localhost".toList then .ok (rest.dropWhile (· ≠ '/'))
    else .error (.foreignHost (String.ofList host))
  | rest => .ok rest

/-- Reads what follows the scheme of a URI. -/
def Location.ofUri (place : Location) (text : List Char) : Except Fault Location := do
  let body := (← dropHost text).takeWhile (· ≠ '#')
  let file := body.takeWhile (· ≠ '?')
  (uriOptions ((body.dropWhile (· ≠ '?')).drop 1)).foldlM Location.setOption
    { place with file := partText file }

def uriScheme : List Char := "file:".toList

/-- A store's name in the form in which it is handed on, where a space becomes a plus. -/
def storeName (name : String) : String :=
  String.ofList ((upToNull name.toList).map fun c => if c = ' ' then '+' else c)

def Location.ofTarget (target : Target) : Except Fault Location := do
  let name := target.file.toList
  let access := if target.readOnly then Access.readOnly else Access.create
  let place : Location := ⟨target.file, access, target.inMemory, target.store.map storeName⟩
  if target.immutable || target.store.isSome then
    return { place with file := String.ofList (upToNull name) }
  if name.contains '\x00' then throw .nullInName
  if uriScheme.isPrefixOf name then place.ofUri (name.drop uriScheme.length) else return place

end Folio.Database
