/-!
# Folders

Files are found by their paths from one folder, which has folders above it up to
the root. A path is followed step by step, and every step but the last has to be
a folder. Names and paths have a greatest length.
-/

namespace Folio

inductive Entry where
  | file (text : String)
  | folder
  deriving DecidableEq, Repr

inductive FileFault where
  | notFound
  | notAFolder
  | isAFolder
  | nameTooLong
  deriving DecidableEq, Repr

def FileFault.message : FileFault → String
  | .notFound => "No such file or directory (os error 2)"
  | .notAFolder => "Not a directory (os error 20)"
  | .isAFolder => "Is a directory (os error 21)"
  | .nameTooLong => "File name too long (os error 36)"

/-- The bytes that the name of a file may have. -/
def longestName : Nat := 255

/-- The bytes that a path may have. -/
def longestPath : Nat := 4095

/-- Entries by the steps from the folder to them. A path that begins at the root of
all folders begins with the step `/`. -/
structure Folder where
  entries : List (List String × Entry)
  deriving DecidableEq, Repr

def stepsOf (path : String) : List String :=
  let steps := (path.toList.splitOn '/').map String.ofList
  if path.toList.head? = some '/' then "/" :: steps else steps

/-- A step to the place where one stands already. -/
def isIdle (step : String) : Bool :=
  step = "" || step = "."

/-- The steps that lead somewhere. -/
def trueSteps (path : String) : List String :=
  (stepsOf path).filter fun step => !isIdle step

/-- All proper beginnings of a path, itself a folder each. -/
def parents (steps : List String) : List (List String) :=
  (List.range steps.length).map steps.take

def Folder.ofFiles (files : List (String × String)) : Folder :=
  ⟨files.flatMap fun (path, text) =>
    let steps := trueSteps path
    (steps, .file text) :: (parents steps).map fun steps => (steps, .folder)⟩

/-- The folders at the root that every system has. -/
def systemFolders : List String :=
  ["bin", "dev", "etc", "home", "lib", "opt", "proc", "root", "sys", "tmp", "usr", "var"]

/-- What stands at a place outside the folder: the root with its folders, and a device
that is always empty. -/
def outside? : List String → Option Entry
  | ["/"] => some .folder
  | ["/", name] => if systemFolders.contains name then some .folder else none
  | ["/", "dev", "null"] => some (.file "")
  | _ => none

/-- A place above the folder, or the folder itself. -/
def isAbove (place : List String) : Bool :=
  place.all (· = "..")

def Folder.entry? (folder : Folder) (place : List String) : Option Entry :=
  if isAbove place then some .folder
  else (outside? place).or (folder.entries.lookup place)

/-- The place above another one. Above the root there is the root. -/
def placeAbove (place : List String) : List String :=
  if place = ["/"] then place
  else if isAbove place then place ++ [".."]
  else place.dropLast

/-- Follows a path from the place `here`. -/
def Folder.follow (folder : Folder) (here : List String) :
    List String → Except FileFault (List String)
  | [] => .ok here
  | step :: rest =>
    match folder.entry? here with
    | none => .error .notFound
    | some (.file _) => .error .notAFolder
    | some .folder =>
      if isIdle step then folder.follow here rest
      else if step = ".." then folder.follow (placeAbove here) rest
      else if longestName < step.utf8ByteSize then .error .nameTooLong
      else folder.follow (here ++ [step]) rest

/-- What stands behind some steps. -/
def Folder.look (folder : Folder) (steps : List String) : Except FileFault Entry := do
  match folder.entry? (← folder.follow [] steps) with
  | some entry => return entry
  | none => throw .notFound

def Folder.read (folder : Folder) (path : String) : Except FileFault String := do
  if path.isEmpty then throw .notFound
  if longestPath < path.utf8ByteSize then throw .nameTooLong
  match ← folder.look (stepsOf path) with
  | .file text => return text
  | .folder => throw .isAFolder

/-- The place that the words of a path describe: a step up takes back the step before
it, whether or not that led to a folder. An error is a step from a file, or a name
that is too long for its folder. -/
def Folder.settle (folder : Folder) (path : String) : Except FileFault (List String) :=
  (trueSteps path).foldlM (fun place step =>
    if step = ".." then .ok (placeAbove place)
    else
      match folder.look (place ++ [step]) with
      | .error .notFound => .ok (place ++ [step])
      | .error fault => .error fault
      | .ok _ => .ok (place ++ [step])) []

end Folio
