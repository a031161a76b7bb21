import Folio.Text.Alphanumeric
import Folio.Text.Blank

/-!
# Variable files

Lines of names and values. Values may be quoted, go over several lines inside
quotes, and mention variables set before. Reading stops at the first line that
is not right; what stood in front of it counts.
-/

namespace Folio.Command

abbrev Variables := List (String × String)

namespace EnvFile

/-- Where a line stands while its end is looked for. -/
inductive LineState where
  | plain
  | blank
  | escape
  | weak
  | weakEscape
  | strong
  | strongEscape
  | comment
  deriving DecidableEq, Repr

def opened (c : Char) : LineState :=
  match c with
  | '\\' => .escape
  | '"' => .weak
  | '\'' => .strong
  | _ => .plain

def LineState.next : LineState → Char → LineState
  | .plain, c =>
    if Text.isBlank c && c ≠ '\n' && c ≠ '\r' then .blank else opened c
  | .blank, c => if c = '#' then .comment else opened c
  | .escape, _ => .plain
  | .weak, c => if c = '\\' then .weakEscape else if c = '"' then .plain else .weak
  | .weakEscape, _ => .weak
  | .strong, c => if c = '\\' then .strongEscape else if c = '\'' then .plain else .strong
  | .strongEscape, _ => .strong
  | .comment, _ => .comment

/-- The state behind a line, and the part of it in front of a comment. -/
def scanLine (state : LineState) : List Char → LineState × List Char
  | [] => (state, [])
  | c :: rest =>
    match state.next c with
    | .comment => (.comment, [])
    | next =>
      let (state, kept) := scanLine next rest
      (state, c :: kept)

/-- The first line with its line break, and the rest. -/
def firstLine : List Char → List Char × List Char
  | [] => ([], [])
  | '\n' :: rest => (['\n'], rest)
  | c :: rest =>
    let (line, more) := firstLine rest
    (c :: line, more)

theorem length_firstLine (text : List Char) (h : text ≠ []) :
    (firstLine text).2.length < text.length := by
  fun_induction firstLine text with
  | case1 => exact absurd rfl h
  | case2 => simp
  | case3 c rest _ line more hr ih =>
    by_cases hn : rest = []
    · subst hn
      simp [firstLine] at hr
      simp [hr.2.symm]
    · have := ih hn
      simp only [hr] at this
      simp only [List.length_cons]
      omega

def dropLineBreak (line : List Char) : List Char :=
  match line.reverse with
  | '\n' :: '\r' :: rest => rest.reverse
  | '\n' :: rest => rest.reverse
  | _ => line

/-- Collects a line that began with `before`. An error is a quote that is never closed,
or a text that ends with a blank: what a blank stands in front of is on its line. -/
def gatherLine (state : LineState) (before text : List Char) :
    Except Unit (Option (List Char × List Char)) :=
  if _h : text = [] then
    if state = .plain then .ok none else .error ()
  else
    let line := (firstLine text).1
    let rest := (firstLine text).2
    if (Text.trimStart (before ++ line)).head? = some '#' then .ok (some ([], rest))
    else
      match scanLine state line with
      | (.plain, _) => .ok (some (dropLineBreak (before ++ line), rest))
      | (.comment, kept) => .ok (some (before ++ kept, rest))
      | (state, _) => gatherLine state (before ++ line) rest
termination_by text.length
decreasing_by exact length_firstLine text _h

/-- How a variable is mentioned inside a value. -/
inductive Mention where
  | none
  | bare
  | braced
  deriving DecidableEq, Repr

structure ValueState where
  output : List Char
  strong : Bool
  weak : Bool
  escaped : Bool
  ended : Bool
  mention : Mention
  name : List Char
  deriving DecidableEq, Repr

def ValueState.start : ValueState :=
  ⟨[], false, false, false, false, .none, []⟩

def ValueState.push (state : ValueState) (c : Char) : ValueState :=
  { state with output := state.output ++ [c] }

/-- Puts in the value of the variable whose name has been read. -/
def ValueState.substitute (state : ValueState) (value : String → String) : ValueState :=
  { state with output := state.output ++ (value (String.ofList state.name)).toList, name := [] }

/-- A character behind a backslash. -/
def escapeValue? : Char → Option Char
  | 'n' => some '\n'
  | c => if ['\\', '\'', '"', '$', ' '].contains c then some c else none

/-- A character while a variable's name is read: a letter or number of any script. -/
def ValueState.mentioned (state : ValueState) (value : String → String) (c : Char) : ValueState :=
  if Text.isAlphanumeric c then { state with name := state.name ++ [c] }
  else
    match state.mention with
    | .braced =>
      if c = '}' then { state.substitute value with mention := .none }
      else { state with name := state.name ++ [c] }
    | _ =>
      if c = '{' && state.name.isEmpty then { state with mention := .braced }
      else
        let state := state.substitute value
        if c = '$' then { state with mention := .bare }
        else { state.push c with mention := .none }

/-- One more character of a value; nothing if it may not stand there. Behind the
blank that ends a value only a comment may follow, which is not looked at. -/
def ValueState.next? (state : ValueState) (value : String → String) (c : Char) :
    Option ValueState :=
  if state.escaped then
    (escapeValue? c).map fun c => { state.push c with escaped := false }
  else if state.strong then
    if c = '\'' then some { state with strong := false } else some (state.push c)
  else if state.mention ≠ .none then some (state.mentioned value c)
  else if c = '$' then some { state with mention := .bare }
  else if c = '\\' then some { state with escaped := true }
  else if state.weak then
    if c = '"' then some { state with weak := false } else some (state.push c)
  else if c = '\'' then some { state with strong := true }
  else if c = '"' then some { state with weak := true }
  else if c = ' ' || c = '\t' then some { state with ended := true }
  else some (state.push c)

def readValue? (value : String → String) (state : ValueState) : List Char → Option String
  | [] =>
    if state.mention = .braced || state.strong || state.weak then none
    else some (String.ofList (state.substitute value).output)
  | c :: rest =>
    if state.ended then
      if c = ' ' || c = '\t' then readValue? value state rest
      else if c = '#' then readValue? value state []
      else none
    else
      match state.next? value c with
      | some state => readValue? value state rest
      | none => none

def isNameStart (c : Char) : Bool :=
  c.isAlpha || c = '_'

def isNameChar (c : Char) : Bool :=
  c.isAlphanum || c = '_' || c = '.'

/-- A name at the front of a line, and what follows it and white space. -/
def readName? (line : List Char) : Option (List Char × List Char) :=
  match line with
  | [] => none
  | c :: _ =>
    if isNameStart c then
      some (line.takeWhile isNameChar, Text.trimStart (line.dropWhile isNameChar))
    else none

def readEquals? : List Char → Option (List Char)
  | '=' :: rest => some rest
  | _ => none

/-- The name of a line and the text of its value. The word `export` may stand in front,
or be the name itself. -/
def splitLine? (line : List Char) : Option (String × List Char) := do
  let (name, rest) ← readName? line
  match readEquals? rest with
  | some value => return (String.ofList name, Text.trimStart value)
  | none =>
    if name ≠ "export".toList then none
    else
      let (name, rest) ← readName? rest
      let value ← readEquals? rest
      return (String.ofList name, Text.trimStart value)

/-- The variable that a line sets, if any. An error is a line that is not right. -/
def readLine (value : String → String) (line : List Char) :
    Except Unit (Option (String × String)) :=
  let line := Text.trimStart (Text.trimEnd line)
  if line.isEmpty || line.head? = some '#' then .ok none
  else
    match splitLine? line with
    | none => .error ()
    | some (name, text) =>
      if text.isEmpty || text.head? = some '#' then .ok (some (name, ""))
      else
        match readValue? value .start text with
        | some value => .ok (some (name, value))
        | none => .error ()

/-- The value of a variable, which is empty if it is not set. Of two settings the
first counts. -/
def valueOf (vars : Variables) (name : String) : String :=
  (vars.lookup name).getD ""

/-- Adds what at most `fuel` lines set to the variables. -/
def readLines : Nat → Variables → List Char → Variables
  | 0, vars, _ => vars
  | fuel + 1, vars, text =>
    match gatherLine .plain [] text with
    | .ok (some (line, rest)) =>
      match readLine (valueOf vars) line with
      | .ok (some setting) => readLines fuel (vars ++ [setting]) rest
      | .ok none => readLines fuel vars rest
      | .error () => vars
    | _ => vars

/-- A mark that some editors put in front of a text. -/
def dropByteOrderMark : List Char → List Char
  | '\ufeff' :: rest => rest
  | text => text

/-- An environment with the variables of a file behind its own. -/
def load (environment : Variables) (text : String) : Variables :=
  let text := dropByteOrderMark text.toList
  readLines (text.length + 1) environment text

end EnvFile

end Folio.Command
