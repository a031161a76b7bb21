/-!
# Wildcards

A pattern is a list of pieces, each of which stands for one character of a kind or
for any run of such characters. It describes whole texts.

Matching goes through the pattern once. It keeps, for each place in the text,
whether the part of the pattern read so far describes the text up to that place.
-/

namespace Folio.Text.Wildcard

inductive Piece where
  | one (p : Char → Bool)
  | run (p : Char → Bool)

/-- Places reached by reading one more character that satisfies `p`. -/
def shift (p : Char → Bool) : List Char → List Bool → List Bool
  | c :: text, reached :: row => (reached && p c) :: shift p text row
  | _, _ => []

/-- Places reached by reading any number of characters that satisfy `p`. `before`
tells about the place in front of the first one. -/
def spread (p : Char → Bool) (before : Bool) : List Char → List Bool → List Bool
  | c :: text, reached :: row =>
    let here := reached || (before && p c)
    here :: spread p here text row
  | _, _ => []

def Piece.advance (piece : Piece) (text : List Char) (row : List Bool) : List Bool :=
  match piece, row with
  | _, [] => []
  | .one p, row => false :: shift p text row
  | .run p, reached :: row => reached :: spread p reached text row

/-- Places reached by the whole pattern. Once there is none there will be none. -/
def reach (text : List Char) : List Piece → List Bool → List Bool
  | [], row => row
  | piece :: rest, row =>
    if row.contains true then reach text rest (piece.advance text row) else row

/-- Whether the pieces describe the whole text. -/
def covers (pieces : List Piece) (text : List Char) : Bool :=
  (reach text pieces (true :: text.map fun _ => false)).getLastD false

end Folio.Text.Wildcard
