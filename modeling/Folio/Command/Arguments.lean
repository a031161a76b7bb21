/-!
# Command line arguments

A command is a word followed by options. An option takes the next argument or
what stands behind an equals sign; a flag takes nothing. Whatever does not fit is
one and the same usage error.
-/

namespace Folio.Command

inductive Invocation where
  | query (table : String) (parameters : List (String × String)) (execute : Bool)
  | render (template : String) (data : Option String)
  | version
  deriving DecidableEq, Repr

structure OptionSpec where
  name : String
  isFlag : Bool
  deriving DecidableEq, Repr

/-- A text cut at its first equals sign. -/
def splitEquals? (text : String) : Option (String × String) :=
  let characters := text.toList
  if characters.contains '=' then
    some (String.ofList (characters.takeWhile (· ≠ '=')),
      String.ofList ((characters.dropWhile (· ≠ '=')).drop 1))
  else none

/-- An argument that can be a value: a lone dash is one, other dashes begin options. -/
def isValue (argument : String) : Bool :=
  argument.toList.head? ≠ some '-' || argument = "-"

/-- The options given, in order. A flag has the empty value. -/
def scan? (specs : List OptionSpec) : List String → Option (List (String × String))
  | [] => some []
  | ["--"] => some []
  | argument :: rest =>
    match splitEquals? argument with
    | some (name, value) => do
      let spec ← specs.find? (·.name = name)
      if spec.isFlag then none
      else return (name, value) :: (← scan? specs rest)
    | none => do
      let spec ← specs.find? (·.name = argument)
      if spec.isFlag then return (argument, "") :: (← scan? specs rest)
      else
        match rest with
        | value :: rest =>
          if isValue value then return (argument, value) :: (← scan? specs rest) else none
        | [] => none

def valuesOf (name : String) (options : List (String × String)) : List String :=
  (options.filter (·.1 = name)).map Prod.snd

def exactlyOne? {α : Type} : List α → Option α
  | [value] => some value
  | _ => none

def atMostOne? {α : Type} : List α → Option (Option α)
  | [] => some none
  | [value] => some (some value)
  | _ => none

def querySpecs : List OptionSpec :=
  [⟨"--table", false⟩, ⟨"--param", false⟩, ⟨"--execute", true⟩]

def renderSpecs : List OptionSpec :=
  [⟨"--template", false⟩, ⟨"--data", false⟩]

/-- A path is a text that is not empty. -/
def path? (text : String) : Option String :=
  if text.isEmpty then none else some text

def Invocation.parse? : List String → Option Invocation
  | "query" :: arguments => do
    let options ← scan? querySpecs arguments
    let table ← exactlyOne? (valuesOf "--table" options)
    let parameters ← (valuesOf "--param" options).mapM splitEquals?
    let execute ← atMostOne? (valuesOf "--execute" options)
    return .query table parameters execute.isSome
  | "render" :: arguments => do
    let options ← scan? renderSpecs arguments
    let template ← exactlyOne? (valuesOf "--template" options)
    let data ← atMostOne? (valuesOf "--data" options)
    return .render (← path? template) (← data.mapM path?)
  | "--version" :: _ => some .version
  | "-V" :: _ => some .version
  | _ => none

/-- The files that a command reads. -/
def Invocation.files : Invocation → List String
  | .query .. => []
  | .render template data => template :: data.toList
  | .version => []

end Folio.Command
