import Folio.Text.Wildcard

/-!
# Key patterns

A star stands for any run of characters and a question mark for any one; neither
stands for a line break. All other characters stand for themselves. A pattern
describes whole keys. No pattern is too large to be matched.
-/

namespace Folio.Cache

open Text.Wildcard (Piece covers)

def isInline (c : Char) : Bool :=
  c ≠ '\n'

def globPiece : Char → Piece
  | '*' => .run isInline
  | '?' => .one isInline
  | c => .one (· = c)

/-- Whether a pattern describes a key. -/
def globMatches (pattern key : String) : Bool :=
  covers (pattern.toList.map globPiece) key.toList

end Folio.Cache
