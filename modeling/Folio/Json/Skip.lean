import Folio.Json.Reader

/-!
# Passing over a value

A value that nobody asked for still has to be JSON. It may be nested to any
depth, and neither the size of its numbers nor its surrogates are looked at.
-/

namespace Folio.Json

open Reading

def skipEscape : Reading Unit := do
  match ← peek with
  | none => ended .string
  | some 'u' => do
    advance
    let _ ← readHexUnit
  | some letter => if (escapeLetter? letter).isSome then advance else refuse .invalidEscape

def skipStringStep : Unit → Reading (Option Unit) := fun _ => do
  match ← peek with
  | none => ended .string
  | some '"' => do advance; return none
  | some '\\' => do advance; skipEscape; return some ()
  | some c =>
    if isControl c then fail (.malformed .controlCharacter) 0 else do advance; return some ()

/-- Passes over the rest of a string whose opening quote has been read. -/
def skipString : Reading Unit :=
  iterate skipStringStep ()

/-- Passes over the key and the colon in front of a member's value. -/
def skipKey : Reading Unit := do
  match ← peekToken with
  | some '"' => do advance; skipString; readColon
  | some _ => refuse .keyNotString
  | none => ended (.inside .object)

def Bracket.close : Bracket → Char
  | .list => ']'
  | .object => '}'

def skipScalar (c : Char) : Reading Unit :=
  match c with
  | 'n' => do advance; readWord ['u', 'l', 'l']
  | 't' => do advance; readWord ['r', 'u', 'e']
  | 'f' => do advance; readWord ['a', 'l', 's', 'e']
  | '"' => do advance; skipString
  | c =>
    if c = '-' || c.isDigit then do
      let _ ← readNumberParts (.malformed .invalidNumber)
    else refuse .expectedValue

/-- Where the walk stands, under the brackets still open: right behind an opening
bracket, or behind a value. -/
structure SkipState where
  opened : Bool
  pending : List Bracket

/-- Passes over a scalar, or opens a bracket. -/
def skipStart (pending : List Bracket) : Reading SkipState := do
  match ← peekToken with
  | none => ended .value
  | some '[' => do advance; return ⟨true, .list :: pending⟩
  | some '{' => do advance; return ⟨true, .object :: pending⟩
  | some c => do skipScalar c; return ⟨false, pending⟩

def skipNext (bracket : Bracket) (outer : List Bracket) : Reading SkipState := do
  if bracket = .object then skipKey
  skipStart (bracket :: outer)

def skipStep (state : SkipState) : Reading (Option SkipState) := do
  match state.pending with
  | [] => return none
  | bracket :: outer =>
    match ← peekToken with
    | none => ended (.inside bracket)
    | some c =>
      if c = bracket.close then do advance; return some ⟨false, outer⟩
      else if state.opened then return some (← skipNext bracket outer)
      else if c = ',' then do advance; return some (← skipNext bracket outer)
      else refuse (.expectedCommaOrEnd bracket)

def skipValue : Reading Unit := do
  let _ ← iterate skipStep (← skipStart [])

end Folio.Json
