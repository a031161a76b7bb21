import Folio.Json.Fault

/-!
# Reading from the left

A cursor is a place in a text with the characters still to be read. Every reader
of JSON text is a step from cursor to cursor, and fails with the place it saw.
-/

namespace Folio.Json

structure Cursor extends Position where
  rest : List Char
  deriving DecidableEq, Repr

def Cursor.start (text : List Char) : Cursor :=
  { line := 1, column := 0, rest := text }

def Position.after (position : Position) (c : Char) : Position :=
  if c = '\n' then ⟨position.line + 1, 0⟩ else ⟨position.line, position.column + c.utf8Size⟩

/-- The place after some more bytes, or after the whole text when it has fewer.
The bytes may end inside a character. -/
def Position.afterBytes (position : Position) : Nat → List Char → Position
  | _, [] => position
  | bytes, c :: rest =>
    if bytes < c.utf8Size then ⟨position.line, position.column + bytes⟩
    else (position.after c).afterBytes (bytes - c.utf8Size) rest

abbrev Reading (α : Type) := StateT Cursor (Except Failure) α

namespace Reading

/-- Fails at the place that lies `bytes` bytes ahead of the cursor. -/
def fail {α : Type} (fault : Fault) (bytes : Nat) : Reading α := fun cursor =>
  .error ⟨fault, cursor.toPosition.afterBytes bytes cursor.rest⟩

/-- Fails at a place on the same line, `bytes` bytes back. -/
def failBack {α : Type} (fault : Fault) (bytes : Nat) : Reading α := fun cursor =>
  .error ⟨fault, cursor.line, cursor.column - bytes⟩

/-- Fails at the next character, which counts as read. -/
def refuse {α : Type} (malformed : Malformed) : Reading α :=
  fail (.malformed malformed) 1

/-- Fails because the text is at its end. -/
def ended {α : Type} (part : Part) : Reading α :=
  fail (.ended part) 0

def mismatch {α : Type} (m : Mismatch) : Reading α :=
  fail (.mismatch m) 0

def peek : Reading (Option Char) := fun cursor =>
  .ok (cursor.rest.head?, cursor)

def advance : Reading Unit := fun cursor =>
  match cursor.rest with
  | [] => .ok ((), cursor)
  | c :: rest => .ok ((), { toPosition := cursor.toPosition.after c, rest })

/-- Reads the characters at the front that satisfy `p`. -/
def takeWhile (p : Char → Bool) : Reading (List Char) := fun cursor =>
  .ok (cursor.rest.takeWhile p,
    { toPosition := (cursor.rest.takeWhile p).foldl Position.after cursor.toPosition
      rest := cursor.rest.dropWhile p })

def isBlank (c : Char) : Bool :=
  c = ' ' || c = '\n' || c = '\t' || c = '\r'

def skipBlanks : Reading Unit := do
  let _ ← takeWhile isBlank

/-- The first character that is not blank, still unread. -/
def peekToken : Reading (Option Char) := do
  skipBlanks
  peek

/-- Repeats a step until it gives nothing, at most once for each of the characters. -/
def loop {σ : Type} (step : σ → Reading (Option σ)) : List Char → σ → Reading σ
  | [], state => pure state
  | _ :: ahead, state => do
    match ← step state with
    | some next => loop step ahead next
    | none => pure state

/-- A step that gives something has read a character, and the last one gives nothing:
the unread characters and one more bound the steps. -/
def iterate {σ : Type} (step : σ → Reading (Option σ)) (state : σ) : Reading σ := do
  let cursor ← get
  loop step (' ' :: cursor.rest) state

/-- Reads a whole text; only blanks may follow what the reader takes. -/
def run {α : Type} (reading : Reading α) (text : String) : Except Failure α := do
  let whole : Reading α := do
    let value ← reading
    match ← peekToken with
    | none => pure value
    | some _ => refuse .trailingCharacters
  let (value, _) ← StateT.run whole (Cursor.start text.toList)
  return value

end Reading

end Folio.Json
