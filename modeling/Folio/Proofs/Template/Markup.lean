import Folio.Proofs.Template.Values

/-!
# The language of templates

Templates as trees, with the text that each one is written as and what it means. The
meaning follows the tree: a block is the meaning of its body in the scope of its place,
and nothing is read twice.
-/

namespace Folio.Template

/-- The blocks, which are written alike. -/
inductive Block where
  | each
  | cond
  deriving DecidableEq, Repr

def Block.kind : Block → BlockKind
  | .each => eachBlock
  | .cond => ifBlock

inductive Markup where
  | text (chars : List Char)
  | plain (path : List Char)
  | raw (path : List Char)
  | block (b : Block) (path : List Char) (body : Markup)
  | append (first second : Markup)

def marks : List Char := ['{', '}', '#', '/']

structure IsPath (path : List Char) : Prop where
  ne_nil : path ≠ []
  isBlank : ∀ c ∈ path, Text.isBlank c = false
  notMem : ∀ c ∈ path, c ∉ marks

namespace Markup

/-- A template as it is written. -/
def source : Markup → List Char
  | .text chars => chars
  | .plain path => plainTag.source path
  | .raw path => rawTag.source path
  | .block b path body => b.kind.opening.source (' ' :: path) ++ body.source ++ b.kind.closing
  | .append first second => first.source ++ second.source

def WellFormed : Markup → Prop
  | .text chars => '{' ∉ chars
  | .plain path => IsPath path
  | .raw path => IsPath path
  | .block _ path body => IsPath path ∧ body.WellFormed
  | .append first second => first.WellFormed ∧ second.WellFormed

def nesting : Markup → Nat
  | .block _ _ body => body.nesting + 1
  | .append first second => max first.nesting second.nesting
  | _ => 0

def meaning : Markup → Scope → List Char
  | .text chars, _ => chars
  | .plain path, scope => display (scope.resolve path)
  | .raw path, scope => display (scope.resolve path)
  | .block .each path body, scope =>
    match scope.resolve path with
    | some (.array items) =>
      (items.mapIdx fun index item =>
        body.meaning (.item item index items.length scope)).flatten
    | _ => []
  | .block .cond path body, scope =>
    match scope.resolve path with
    | some value => if value.truthy then body.meaning scope else []
    | none => []
  | .append first second, scope => first.meaning scope ++ second.meaning scope

end Markup

end Folio.Template
