import Folio.Template.Tag

/-!
# Blocks

A block is an opening tag, a body, and the closing mark that pairs with the tag:
marks and tags inside the body pair with each other first. A text is cut into
blocks, leftmost first, and the gaps between them. An opening tag without a
partner is part of a gap.
-/

namespace Folio.Template

structure BlockKind where
  opening : Tag
  closing : List Char
  closing_ne_nil : closing ≠ []

inductive Piece where
  | gap (text : List Char)
  | block (run body : List Char)
  deriving DecidableEq, Repr

/-- Puts characters in front of the first gap. -/
def prependGap (text : List Char) : List Piece → List Piece
  | .gap gap :: rest => .gap (text ++ gap) :: rest
  | pieces => .gap text :: pieces

namespace BlockKind

/-- Cuts a text at the closing mark that brings `depth` open blocks down to none.
Gives the part in front of the mark and the part behind it. -/
def close? (kind : BlockKind) (depth : Nat) (text : List Char) :
    Option (List Char × List Char) :=
  match text with
  | [] => none
  | c :: others =>
    match h : kind.opening.match? (c :: others) with
    | some (run, rest) =>
      (kind.close? (depth + 1) rest).map fun (body, after) =>
        (kind.opening.source run ++ body, after)
    | none =>
      match hc : afterMark? kind.closing (c :: others) with
      | some rest =>
        if depth ≤ 1 then some ([], rest)
        else (kind.close? (depth - 1) rest).map fun (body, after) =>
          (kind.closing ++ body, after)
      | none =>
        (kind.close? depth others).map fun (body, after) => (c :: body, after)
termination_by text.length
decreasing_by
  · exact Tag.length_lt_of_match? h
  · have := List.length_pos_iff.mpr kind.closing_ne_nil
    rw [afterMark?_eq_some.mp hc, List.length_append]
    omega
  · simp

theorem eq_append_of_close? {kind : BlockKind} {depth : Nat} {text body after : List Char}
    (h : kind.close? depth text = some (body, after)) :
    text = body ++ (kind.closing ++ after) := by
  fun_induction kind.close? depth text generalizing body after with
  | case1 => cases h
  | case2 depth c others run rest hm ih =>
    simp only [Option.map_eq_some_iff, Prod.exists, Prod.mk.injEq] at h
    obtain ⟨b, a, hb, rfl, rfl⟩ := h
    rw [Tag.eq_source_append hm, ih hb, List.append_assoc]
  | case3 depth c others _ rest hc _ =>
    simp only [Option.some.injEq, Prod.mk.injEq] at h
    obtain ⟨rfl, rfl⟩ := h
    rw [afterMark?_eq_some.mp hc, List.nil_append]
  | case4 depth c others _ rest hc _ ih =>
    simp only [Option.map_eq_some_iff, Prod.exists, Prod.mk.injEq] at h
    obtain ⟨b, a, hb, rfl, rfl⟩ := h
    rw [afterMark?_eq_some.mp hc, ih hb, List.append_assoc]
  | case5 depth c others _ _ ih =>
    simp only [Option.map_eq_some_iff, Prod.exists, Prod.mk.injEq] at h
    obtain ⟨b, a, hb, rfl, rfl⟩ := h
    rw [ih hb, List.cons_append]

theorem length_lt_of_close? {kind : BlockKind} {depth : Nat} {text body after : List Char}
    (h : kind.close? depth text = some (body, after)) :
    body.length + after.length < text.length := by
  have hp := List.length_pos_iff.mpr kind.closing_ne_nil
  rw [eq_append_of_close? h]
  simp only [List.length_append]
  omega

/-- The blocks of a text and the gaps between them. -/
def cut (kind : BlockKind) (text : List Char) : List Piece :=
  match text with
  | [] => []
  | c :: others =>
    match _h : kind.opening.match? (c :: others) with
    | some (run, rest) =>
      match _hc : kind.close? 1 rest with
      | some (body, after) => .block run body :: kind.cut after
      | none => prependGap (kind.opening.source run) (kind.cut rest)
    | none => prependGap [c] (kind.cut others)
termination_by text.length
decreasing_by
  · have := Tag.length_lt_of_match? _h
    have := length_lt_of_close? _hc
    omega
  · exact Tag.length_lt_of_match? _h
  · simp

/-- Replaces every block by what a renderer makes of its run and its body. -/
def replace (kind : BlockKind) (render : List Char → List Char → Option (List Char))
    (text : List Char) : Option (List Char) := do
  let parts ← (kind.cut text).mapM fun
    | .gap gap => some gap
    | .block run body => render (Text.trim run) body
  return parts.flatten

end BlockKind

def eachBlock : BlockKind :=
  ⟨eachTag, "\x7b\x7b/each\x7d\x7d".toList, by decide⟩

def ifBlock : BlockKind :=
  ⟨ifTag, "\x7b\x7b/if\x7d\x7d".toList, by decide⟩

end Folio.Template
