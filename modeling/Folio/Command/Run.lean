import Folio.Cache.Basic
import Folio.Command.Arguments
import Folio.Command.EnvFile
import Folio.Config
import Folio.Database.Pool
import Folio.Query.Result
import Folio.Template.Render

/-!
# Running a command

A command compiles a filter or renders a template. It ends with a code, and with
what it has written: a result, or a message with the reasons behind it.
-/

namespace Folio.Command

structure Outcome where
  code : Nat
  output : String
  errors : String
  deriving DecidableEq, Repr

/-- A message and the reasons behind it, the outermost first. -/
structure Trouble where
  message : String
  causes : List String
  deriving DecidableEq, Repr

/-- Why a command stops without a result. -/
inductive Stop where
  | trouble (report : Trouble)
  /-- A fault that the command has no report for. -/
  | crash (code : Nat) (message : String)
  deriving DecidableEq, Repr

/-- Puts a margin in front of all lines of a text but the first. -/
def indented (margin text : String) : String :=
  Query.joined ("\n" ++ margin) ((text.toList.splitOn '\n').map String.ofList)

/-- A single reason stands by itself; several are numbered. -/
def causeLines : List String → List String
  | [] => []
  | [cause] => ["    " ++ indented "    " cause]
  | causes => causes.mapIdx fun index cause =>
    let number := toString index
    String.ofList (List.replicate (5 - number.length) ' ') ++ number ++ ": " ++
      indented "       " cause

def Trouble.text (trouble : Trouble) : String :=
  let causes :=
    if trouble.causes.isEmpty then ""
    else "\n\nCaused by:\n" ++ Query.joined "\n" (causeLines trouble.causes)
  "Error: " ++ trouble.message ++ causes ++ "\n"

def Stop.outcome : Stop → Outcome
  | .trouble report => ⟨1, "", report.text⟩
  | .crash code message => ⟨code, "", message ++ "\n"⟩

def fail {α : Type} (message : String) (causes : List String) : Except Stop α :=
  .error (.trouble ⟨message, causes⟩)

def loadConfig (vars : Variables) : Except Stop Config :=
  match Config.ofLookup fun name => vars.lookup name with
  | .ok config => .ok config
  | .error invalid =>
    fail "failed to load configuration" [invalid.context, invalid.fault.message]

/-- The rows of a filter, which go through the cache. -/
def execute (config : Config) (folder : Folder) (table : String) (filter : Query.Filter)
    (query : Query.CompiledQuery) : Except Stop Json := do
  let pool ←
    match Database.Pool.connect folder config.databaseUrl config.maxConnections with
    | .ok pool => pure pool
    | .error fault => fail fault.message fault.causes
  match pool.checkHealth with
  | .ok () => pure ()
  | .error fault => fail fault.message fault.causes
  let key := config.cacheSettings.key "query" (some query.encode.toText)
  let (_, outcome) :=
    (Cache.ofSettings config.cacheSettings).getOrSet 0 key none fun now =>
      ⟨now, (pool.fetch (filter.statement table)).map Json.array⟩
  match outcome with
  | .cached rows => return rows
  | .loaded rows => return rows
  | .failed fault => fail Query.QueryError.database.message fault.causes
  | .fault fault => throw (.crash 101 fault.message)

def runQuery (config : Config) (folder : Folder) (table : String)
    (parameters : List (String × String)) (executes : Bool) : Except Stop String := do
  let filter :=
    Query.Filter.ofParameters ⟨fun name => parameters.reverse.lookup name⟩ config.maxLimit
  let query := filter.compile table
  if executes then
    match query.ensureValid with
    | .ok query => return (← execute config folder table filter query).toPrettyText
    | .error error => fail error.message []
  else return query.encode.toPrettyText

def readFile (folder : Folder) (what path : String) : Except Stop String :=
  match folder.read path with
  | .ok text => .ok text
  | .error fault => fail ("failed to read " ++ what ++ " " ++ path) [fault.message]

def readData (folder : Folder) : Option String → Except Stop Json
  | none => .ok (.object [])
  | some path => do
    match Json.parse (← readFile folder "data" path) with
    | .ok data => return data
    | .error failure => fail ("invalid JSON in " ++ path) [failure.message]

def runRender (folder : Folder) (template : String) (data : Option String) :
    Except Stop String := do
  let source ← readFile folder "template" template
  let data ← readData folder data
  match Template.render? source data with
  | some page => return page
  | none => throw (.crash 134 "the template nests too deep")

def versionLine : String := "vellum-kernel 0.1.0-devel"

def dispatch (vars : Variables) (folder : Folder) : Invocation → Except Stop String
  | .version => .ok versionLine
  | .query table parameters execute => do
    runQuery (← loadConfig vars) folder table parameters execute
  | .render template data => do
    let _ ← loadConfig vars
    runRender folder template data

/-- The name of the file with variables of the folder. -/
def envFileName : String := ".env"

/-- The variables of the environment, and behind them those of the folder. -/
def variablesOf (environment : Variables) (folder : Folder) : Variables :=
  match folder.read envFileName with
  | .ok text => EnvFile.load environment text
  | .error _ => environment

def run (environment : Variables) (folder : Folder) (arguments : List String) : Outcome :=
  match Invocation.parse? arguments with
  | none => ⟨2, "", ""⟩
  | some invocation =>
    match dispatch (variablesOf environment folder) folder invocation with
    | .ok text => ⟨0, text ++ "\n", ""⟩
    | .error stop => stop.outcome

end Folio.Command
