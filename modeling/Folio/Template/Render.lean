import Folio.Json.Loose
import Folio.Template.Block
import Folio.Template.Scope

/-!
# Rendering

A template is rendered in passes, each over the text that the pass before it
left: loops, conditionals, raw tags, helper calls and plain tags. Bodies of
blocks are rendered by themselves, in the scope of their place. Values are
inserted as they are, so a value that holds tags is seen by the later passes.

Values can hold blocks whose bodies hold the value again, so nothing bounds how
deep rendering goes. `renderWithin` goes only so deep, and gives nothing when
that is not enough.
-/

namespace Folio.Template

/-- The text of a value. What is missing or null has none. -/
def display (value : Option Json) : List Char :=
  match value with
  | none => []
  | some .null => []
  | some value => value.looseText

def isWordChar (c : Char) : Bool :=
  c.isAlphanum

/-- Underscores become spaces and words begin with a capital. `inWord` tells
whether the character in front is part of a word. -/
def titleCase (inWord : Bool) : List Char → List Char
  | [] => []
  | c :: rest =>
    let c := if c = '_' then ' ' else c
    (if isWordChar c && !inWord then c.toUpper else c) :: titleCase (isWordChar c) rest

/-- The text of a helper call. A call that cannot be made has none. -/
def applyHelper (scope : Scope) (helper argument : List Char) : Option (List Char) :=
  if helper = "titleCase".toList then
    match scope.resolve argument with
    | none => none
    | some .null => none
    | some value => some (titleCase false value.looseText)
  else none

def fillRaw (scope : Scope) (text : List Char) : List Char :=
  rawTag.replace (fun run => display (scope.resolve (Text.trim run))) text

/-- A call that cannot be made stays as it is. -/
def fillCalls (scope : Scope) (text : List Char) : List Char :=
  callTag.replace (fun run =>
    match splitCall? run with
    | none => callTag.source run
    | some (helper, argument) =>
      (applyHelper scope (Text.trim helper) (Text.trim argument)).getD (callTag.source run)) text

/-- A tag whose path has a space inside stays as it is. -/
def fillPlain (scope : Scope) (text : List Char) : List Char :=
  plainTag.replace (fun run =>
    if (Text.trim run).contains ' ' then plainTag.source run
    else display (scope.resolve (Text.trim run))) text

/-- A renderer of texts in scopes; it may give up. -/
abbrev Renderer := Scope → List Char → Option (List Char)

/-- The body of a loop for each element of the list, one after the other. -/
def renderEach (render : Renderer) (scope : Scope) (path body : List Char) : Option (List Char) :=
  match scope.resolve path with
  | some (.array items) => do
    let size := items.length
    let parts ← (items.mapIdx fun index item => Scope.item item index size scope).mapM
      fun inner => render inner body
    return parts.flatten
  | _ => some []

def expandLoops (render : Renderer) (scope : Scope) (text : List Char) : Option (List Char) :=
  eachBlock.replace (renderEach render scope) text

/-- The body of a conditional if what its path leads to holds. -/
def renderIf (render : Renderer) (scope : Scope) (path body : List Char) : Option (List Char) :=
  match scope.resolve path with
  | some value => if value.truthy then render scope body else some []
  | none => some []

/-- How often the conditionals of one text are looked for. -/
def maxPasses : Nat := 100

/-- Whether a text holds what conditionals are looked for by. -/
def mentionsIf : List Char → Bool
  | [] => false
  | c :: rest => (afterMark? "\x7b\x7b#if ".toList (c :: rest)).isSome || mentionsIf rest

/-- Resolves conditionals until there are none, or nothing changes, or `passes` are made. -/
def resolveIfs (render : Renderer) (scope : Scope) : Nat → List Char → Option (List Char)
  | 0, text => some text
  | passes + 1, text =>
    if mentionsIf text then do
      let next ← ifBlock.replace (renderIf render scope) text
      if next = text then some text else resolveIfs render scope passes next
    else some text

/-- Renders a text whose blocks nest less than `depth` deep, those that come out
of values included. -/
def renderWithin : Nat → Renderer
  | 0, _, _ => none
  | depth + 1, scope, text => do
    let text ← expandLoops (renderWithin depth) scope text
    let text ← resolveIfs (renderWithin depth) scope maxPasses text
    return fillPlain scope (fillCalls scope (fillRaw scope text))

/-- How deep blocks that come out of values may nest beyond those of the template. -/
def extraDepth : Nat := 4096

/-- The page for a template and its data, unless values make it nest too deep. -/
def render? (template : String) (data : Json) : Option String :=
  (renderWithin (template.length + extraDepth) (.root data) template.toList).map String.ofList

end Folio.Template
