import Folio.Command.Run

/-!
# The command line program

Collects what a command sees of its surroundings, runs it, and writes what it
has to say.
-/

namespace Folio.Main

open Command

/-- The variables that are looked at without being mentioned anywhere. -/
def variableNames : List String :=
  ["DATABASE_URL", "DATABASE_MAX_CONNECTIONS", "QUERY_MAX_LIMIT", "CACHE_TTL_SECS",
    "CACHE_KEY_PREFIX"]

/-- Every word of a text, as it may be the name of a variable. -/
def mentionedNames (text : String) : List String :=
  ((text.toList.splitOnP fun c => !(c.isAlphanum || c = '_')).filter (!·.isEmpty)).map
    String.ofList

def collectVariables (names : List String) : IO Variables :=
  names.filterMapM fun name => do
    return (← IO.getEnv name).map fun value => (name, value)

def collectFile (path : String) : IO (List (String × String)) := do
  try return [(path, ← IO.FS.readFile path)]
  catch _ => return []

/-- The files of the current folder that a command reads. -/
def collectFiles (paths : List String) : IO (List (String × String)) := do
  return (← paths.mapM collectFile).flatten

end Folio.Main

open Folio Folio.Command in
def main (arguments : List String) : IO UInt32 := do
  let paths := ((Invocation.parse? arguments).map Invocation.files).getD []
  let files ← Folio.Main.collectFiles (envFileName :: paths)
  let mentioned := Folio.Main.mentionedNames ((files.lookup envFileName).getD "")
  let environment ← Folio.Main.collectVariables (Folio.Main.variableNames ++ mentioned)
  let outcome := run environment (Folder.ofFiles files) arguments
  IO.print outcome.output
  IO.eprint outcome.errors
  return outcome.code.toUInt32
