import Folio.Proofs.Template.Pairing
import Folio.Proofs.Text.Offsets

/-!
# Replacing blocks with two cursors

Blocks can be replaced by a loop that keeps two byte offsets: up to one the text has been copied,
and at the other one the search for opening tags goes on. Behind an opening tag without a
partner only the search goes on. The loop ends, all of its offsets are places in the text, its
count of open blocks stays above zero, and what it gives are the pieces of the text with its
blocks replaced.
-/

namespace Folio.Template

open Attempt (mapM_eq_some mapM_eq_some_iff)
open Text (Crash byteSize byteSize_append cutAt cutAt_byteSize cutAt_eq_ok_iff slice
  slice_between)

-- ---------------------------------------------------------------------------
-- Replaced pieces
-- ---------------------------------------------------------------------------

namespace BlockKind

variable {kind : BlockKind} {render : List Char → List Char → List Char}
  {text run rest body after : List Char}

/-- What is left of a piece by a renderer that gives a text for every block. -/
def filledPiece (render : List Char → List Char → List Char) : Piece → List Char
  | .gap gap => gap
  | .block run body => render (Text.trim run) body

/-- A text with its blocks replaced. -/
def filled (kind : BlockKind) (render : List Char → List Char → List Char) (text : List Char) :
    List Char :=
  (kind.cut text).flatMap (filledPiece render)

theorem replace_eq_filled (kind : BlockKind) (render : List Char → List Char → List Char)
    (text : List Char) :
    kind.replace (fun path body => some (render path body)) text =
      some (kind.filled render text) := by
  have hpieces : (kind.cut text).mapM (renderPiece fun path body => some (render path body)) =
      some ((kind.cut text).map (filledPiece render)) :=
    mapM_eq_some fun piece _ => by cases piece <;> rfl
  rw [replace_eq, hpieces, Option.map_some, filled, List.flatMap_def]

/-- A renderer that may give nothing makes a text just when it gives one for every block. -/
theorem replace_eq_some_iff {render : List Char → List Char → Option (List Char)}
    {out : List Char} :
    kind.replace render text = some out ↔
      ∃ parts, List.Forall₂ (fun piece part => renderPiece render piece = some part)
        (kind.cut text) parts ∧ out = parts.flatten := by
  rw [replace_eq, Option.map_eq_some_iff]
  simp only [mapM_eq_some_iff, @eq_comm _ _ out]

theorem filled_nil : kind.filled render [] = [] := by
  rw [filled, cut]
  rfl

theorem filled_of_match (h : kind.opening.match? text = some (run, rest))
    (hc : kind.close? 1 rest = some (body, after)) :
    kind.filled render text = render (Text.trim run) body ++ kind.filled render after := by
  rw [filled, cut_of_match h hc]
  rfl

theorem filled_of_unclosed (h : kind.opening.match? text = some (run, rest))
    (hc : kind.close? 1 rest = none) :
    kind.filled render text = kind.opening.source run ++ kind.filled render rest := by
  rw [filled, cut_of_unclosed h hc, flatMap_prependGap fun _ => rfl]
  rfl

theorem filled_cons {c : Char} (h : kind.opening.match? (c :: text) = none) :
    kind.filled render (c :: text) = c :: kind.filled render text := by
  rw [filled, cut_of_match?_eq_none h, flatMap_prependGap fun _ => rfl]
  rfl

end BlockKind

-- ---------------------------------------------------------------------------
-- Searching
-- ---------------------------------------------------------------------------

/-- The offset and the run of the first tag in a text that begins at an offset. -/
def Tag.find? (tag : Tag) (offset : Nat) : List Char → Option (Nat × List Char)
  | [] => none
  | c :: others =>
    match tag.match? (c :: others) with
    | some (run, _) => some (offset, run)
    | none => tag.find? (offset + c.utf8Size) others

namespace BlockKind

variable {kind : BlockKind} (render : List Char → List Char → List Char)
  {text run rest body after : List Char} {offset start : Nat}

theorem filled_of_find?_eq_none (h : kind.opening.find? offset text = none) :
    kind.filled render text = text := by
  induction text generalizing offset with
  | nil => exact filled_nil
  | cons c text ih =>
    rw [Tag.find?] at h
    split at h
    · cases h
    · rename_i hm
      rw [filled_cons hm, ih h]

/-- What stands in front of the first tag is left as it is. -/
theorem exists_of_find?_eq_some (h : kind.opening.find? offset text = some (start, run)) :
    ∃ front behind rest, text = front ++ behind ∧ start = offset + byteSize front ∧
      kind.opening.match? behind = some (run, rest) ∧
        kind.filled render text = front ++ kind.filled render behind := by
  induction text generalizing offset with
  | nil => cases h
  | cons c text ih =>
    rw [Tag.find?] at h
    split at h
    · rename_i rest hm
      cases h
      exact ⟨[], c :: text, rest, rfl, rfl, hm, rfl⟩
    · rename_i hm
      obtain ⟨front, behind, rest, rfl, hs, hb, hf⟩ := ih h
      refine ⟨c :: front, behind, rest, rfl, ?_, hb, ?_⟩
      · rw [hs, Text.byteSize_cons, Nat.add_assoc]
      · rw [filled_cons hm, hf, List.cons_append]

/-- The offsets of the closing mark that brings `depth` open blocks down to none. -/
def closingMark (kind : BlockKind) (depth offset : Nat) :
    List Token → Except Crash (Option (Nat × Nat))
  | [] => .ok none
  | .opening run :: rest =>
    kind.closingMark (depth + 1) (offset + byteSize (kind.tokenText (.opening run))) rest
  | .other c :: rest => kind.closingMark depth (offset + byteSize (kind.tokenText (.other c))) rest
  | .closing :: rest =>
    match depth with
    | 0 => .error .overflow
    | 1 => .ok (some (offset, offset + byteSize kind.closing))
    | depth + 2 =>
      kind.closingMark (depth + 1) (offset + byteSize (kind.tokenText .closing)) rest

/-- An open block is counted for as long as the mark is looked for, so the count never goes
below zero. -/
theorem closingMark_eq {depth : Nat} (hd : 1 ≤ depth) (offset : Nat) (tokens : List Token) :
    kind.closingMark depth offset tokens =
      .ok ((pair depth tokens).map fun (before, _) =>
        (offset + byteSize (kind.textOf before),
          offset + byteSize (kind.textOf before) + byteSize kind.closing)) := by
  induction tokens generalizing depth offset with
  | nil => rfl
  | cons token tokens ih =>
    cases token with
    | opening run =>
      rw [closingMark, ih (Nat.le_add_left 1 depth), pair, Option.map_map]
      simp only [Function.comp_def, textOf_cons, byteSize_append, Nat.add_assoc]
    | other c =>
      rw [closingMark, ih hd, pair, Option.map_map]
      simp only [Function.comp_def, textOf_cons, byteSize_append, Nat.add_assoc]
    | closing =>
      rcases Nat.eq_or_lt_of_le hd with rfl | hmore
      · rfl
      · obtain ⟨depth, rfl⟩ := Nat.exists_eq_add_of_le' hmore
        have hpair : pair (depth + 2) (.closing :: tokens) =
            (pair (depth + 1) tokens).map fun (before, behind) => (.closing :: before, behind) :=
          if_neg (by omega)
        rw [closingMark, ih (Nat.le_add_left 1 depth), hpair, Option.map_map]
        simp only [Function.comp_def, textOf_cons, byteSize_append, Nat.add_assoc]

theorem closingMark_tokens (kind : BlockKind) (offset : Nat) (text : List Char) :
    kind.closingMark 1 offset (kind.tokens text) =
      .ok ((kind.close? 1 text).map fun (body, _) =>
        (offset + byteSize body, offset + byteSize body + byteSize kind.closing)) := by
  rw [closingMark_eq (Nat.le_refl 1), close?_eq_pair, Option.map_map]
  rfl

end BlockKind

-- ---------------------------------------------------------------------------
-- The loop
-- ---------------------------------------------------------------------------

/-- How far a text has been copied, where the search goes on, and what has been written. -/
structure Cursors where
  copied : Nat
  search : Nat
  out : List Char

namespace BlockKind

section
variable (kind : BlockKind) (render : List Char → List Char → List Char) (text : List Char)

/-- One turn of the loop, or nothing when there is no further opening tag. -/
def turn (cursors : Cursors) : Except Crash (Option Cursors) := do
  let (_, rest) ← cutAt cursors.search text
  match kind.opening.find? cursors.search rest with
  | none => return none
  | some (start, run) =>
    let stop := start + byteSize (kind.opening.source run)
    let (_, inside) ← cutAt stop text
    match ← kind.closingMark 1 stop (kind.tokens inside) with
    | none => return some { cursors with search := stop }
    | some (bodyEnd, blockEnd) =>
      let gap ← slice cursors.copied start text
      let body ← slice stop bodyEnd text
      return some ⟨blockEnd, blockEnd, cursors.out ++ gap ++ render (Text.trim run) body⟩

/-- Takes turns until there are no more opening tags, and copies the rest of the text. Gives
nothing when the turns do not suffice. -/
def turns : Nat → Cursors → Except Crash (Option (List Char))
  | 0, _ => return none
  | n + 1, cursors => do
    match ← kind.turn render text cursors with
    | some next => turns n next
    | none =>
      let (_, rest) ← cutAt cursors.copied text
      return some (cursors.out ++ rest)

end

/-- Cursors stand in a text behind a part that was copied and behind one that was only searched,
with the rest still to be searched. -/
def IsAt (text : List Char) (cursors : Cursors) (searched rest : List Char) : Prop :=
  ∃ copied, text = copied ++ (searched ++ rest) ∧ cursors.copied = byteSize copied ∧
    cursors.search = byteSize (copied ++ searched)

namespace IsAt

variable {text searched front rest : List Char} {cursors : Cursors}

theorem start (text : List Char) : IsAt text ⟨0, 0, []⟩ [] text :=
  ⟨[], rfl, rfl, rfl⟩

theorem cutAt_search (h : IsAt text cursors searched rest) :
    ∃ before, cutAt cursors.search text = .ok (before, rest) := by
  obtain ⟨copied, rfl, -, hs⟩ := h
  exact ⟨copied ++ searched, by rw [hs, ← List.append_assoc]; exact cutAt_byteSize _ _⟩

theorem cutAt_copied (h : IsAt text cursors searched rest) :
    ∃ before, cutAt cursors.copied text = .ok (before, searched ++ rest) := by
  obtain ⟨copied, rfl, hc, -⟩ := h
  exact ⟨copied, by rw [hc]; exact cutAt_byteSize _ _⟩

theorem slice_searched (h : IsAt text cursors searched rest) :
    slice cursors.copied cursors.search text = .ok searched := by
  obtain ⟨copied, rfl, hc, hs⟩ := h
  rw [hc, hs]
  exact slice_between ..

/-- The search goes on behind a part that stays uncopied. -/
theorem skip (h : IsAt text cursors searched (front ++ rest)) :
    IsAt text { cursors with search := cursors.search + byteSize front } (searched ++ front)
      rest := by
  obtain ⟨copied, rfl, hc, hs⟩ := h
  refine ⟨copied, ?_, hc, ?_⟩
  · simp only [List.append_assoc]
  · simp only [hs, byteSize_append, Nat.add_assoc]

/-- Both cursors are put behind a part. -/
theorem pass (h : IsAt text cursors searched (front ++ rest)) (out : List Char) :
    IsAt text ⟨cursors.search + byteSize front, cursors.search + byteSize front, out⟩ []
      rest := by
  obtain ⟨copied, rfl, -, hs⟩ := h
  have hend : cursors.search + byteSize front = byteSize (copied ++ (searched ++ front)) := by
    simp only [hs, byteSize_append, Nat.add_assoc]
  refine ⟨copied ++ (searched ++ front), ?_, hend, ?_⟩
  · simp only [List.append_assoc, List.nil_append]
  · rw [List.append_nil]
    exact hend

end IsAt

variable {kind : BlockKind} (render : List Char → List Char → List Char)
  {text searched front rest inside run body after : List Char} {cursors : Cursors}

theorem turn_of_none (h : IsAt text cursors searched rest)
    (hf : kind.opening.find? cursors.search rest = none) :
    kind.turn render text cursors = .ok none := by
  obtain ⟨before, hrest⟩ := h.cutAt_search
  simp only [turn, hrest, bind, Except.bind, hf]
  rfl

theorem turn_of_unclosed
    (h : IsAt text cursors searched (front ++ (kind.opening.source run ++ inside)))
    (hf : kind.opening.find? cursors.search (front ++ (kind.opening.source run ++ inside)) =
      some (cursors.search + byteSize front, run)) (hc : kind.close? 1 inside = none) :
    kind.turn render text cursors = .ok (some { cursors with
      search := cursors.search + byteSize front + byteSize (kind.opening.source run) }) := by
  obtain ⟨_, hrest⟩ := h.cutAt_search
  obtain ⟨_, hinside⟩ := h.skip.skip.cutAt_search
  simp only [turn, hrest, bind, Except.bind, hf, hinside, closingMark_tokens, hc]
  rfl

theorem turn_of_closed
    (h : IsAt text cursors searched (front ++ (kind.opening.source run ++ inside)))
    (hf : kind.opening.find? cursors.search (front ++ (kind.opening.source run ++ inside)) =
      some (cursors.search + byteSize front, run))
    (hc : kind.close? 1 inside = some (body, after)) :
    let blockEnd := cursors.search + byteSize front + byteSize (kind.opening.source run) +
      byteSize body + byteSize kind.closing
    kind.turn render text cursors = .ok (some ⟨blockEnd, blockEnd,
      cursors.out ++ (searched ++ front) ++ render (Text.trim run) body⟩) := by
  have hopened := h.skip.pass []
  obtain ⟨_, hrest⟩ := h.cutAt_search
  obtain ⟨_, hinside⟩ := hopened.cutAt_search
  have hgap := h.skip.slice_searched
  have hbody : slice (cursors.search + byteSize front + byteSize (kind.opening.source run))
      (cursors.search + byteSize front + byteSize (kind.opening.source run) + byteSize body)
      text = .ok body := by
    rw [eq_append_of_close? hc] at hopened
    exact hopened.skip.slice_searched
  simp only [turn, hrest, bind, Except.bind, hf, hinside, closingMark_tokens, hc,
    Option.map_some, hgap, hbody]
  rfl

/-- A turn never fails. Either there is no opening tag in the rest, or the rest gets shorter and
what is written in the end stays the same. -/
theorem turn_spec (kind : BlockKind) (h : IsAt text cursors searched rest) :
    (kind.turn render text cursors = .ok none ∧ kind.filled render rest = rest) ∨
      ∃ next searched' rest', kind.turn render text cursors = .ok (some next) ∧
        IsAt text next searched' rest' ∧ rest'.length < rest.length ∧
        next.out ++ (searched' ++ kind.filled render rest') =
          cursors.out ++ (searched ++ kind.filled render rest) := by
  cases hf : kind.opening.find? cursors.search rest with
  | none => exact .inl ⟨turn_of_none render h hf, filled_of_find?_eq_none render hf⟩
  | some found =>
    obtain ⟨start, run⟩ := found
    obtain ⟨front, behind, inside, rfl, rfl, hm, hfilled⟩ :=
      exists_of_find?_eq_some render hf
    have hshorter := Tag.length_lt_of_match? hm
    obtain rfl := Tag.eq_source_append hm
    rw [hfilled, List.length_append]
    cases hc : kind.close? 1 inside with
    | none =>
      refine .inr ⟨_, _, inside, turn_of_unclosed render h hf hc, h.skip.skip, by omega, ?_⟩
      rw [filled_of_unclosed hm hc]
      simp only [List.append_assoc]
    | some parts =>
      obtain ⟨body, after⟩ := parts
      have hlength := length_lt_of_close? hc
      have hnext := h.skip.skip
      rw [eq_append_of_close? hc] at hnext
      refine .inr ⟨_, [], after, turn_of_closed render h hf hc, hnext.skip.pass _, by omega, ?_⟩
      rw [filled_of_match hm hc]
      simp only [List.append_assoc, List.nil_append]

/-- With as many turns as there are characters to search, the loop ends. -/
theorem turns_eq (kind : BlockKind) {n : Nat} (h : IsAt text cursors searched rest)
    (hn : rest.length < n) :
    kind.turns render text n cursors =
      .ok (some (cursors.out ++ (searched ++ kind.filled render rest))) := by
  induction n generalizing cursors searched rest with
  | zero => exact absurd hn (Nat.not_lt_zero _)
  | succ n ih =>
    rcases turn_spec render kind h with
      ⟨ht, hfilled⟩ | ⟨next, searched', rest', ht, hnext, hshorter, hout⟩
    · obtain ⟨_, hcopied⟩ := h.cutAt_copied
      rw [hfilled]
      simp only [turns, ht, bind, Except.bind, hcopied]
      rfl
    · have hrun := ih hnext (by omega)
      rw [hout] at hrun
      simp only [turns, ht, bind, Except.bind]
      exact hrun

end BlockKind

/-- Blocks pair with their closing marks, and nothing else of a text is touched: the pieces of a
text are its only cutting, the bodies of its blocks are balanced, the loop comes to its end
without a crash, and what it gives are the pieces with every block replaced. -/
theorem replace_pairs_blocks (b : Block) (text : List Char) :
    (∀ pieces, b.kind.join pieces = text ∧ b.kind.IsCutting pieces ↔ pieces = b.kind.cut text) ∧
      (∀ run body, .block run body ∈ b.kind.cut text → Balanced (b.kind.tokens body)) ∧
      (∀ render, b.kind.turns render text (text.length + 1) ⟨0, 0, []⟩ =
          .ok (some (b.kind.filled render text)) ∧
        b.kind.replace (fun path body => some (render path body)) text =
          some (b.kind.filled render text)) ∧
      ∀ render out, b.kind.replace render text = some out ↔
        ∃ parts, List.Forall₂ (fun piece part => BlockKind.renderPiece render piece = some part)
          (b.kind.cut text) parts ∧ out = parts.flatten := by
  refine ⟨fun pieces => b.isBraced.isCutting_iff, fun run body hm => ?_, fun render => ⟨?_, ?_⟩,
    fun render out => BlockKind.replace_eq_some_iff⟩
  · exact b.isBraced.balanced_of_mem (b.isBraced.isCutting_cut text) hm
  · have hrun := BlockKind.turns_eq render b.kind (BlockKind.IsAt.start text) (Nat.lt_succ_self _)
    simpa only [List.nil_append] using hrun
  · exact b.kind.replace_eq_filled render text

/-- The first tag has no closing mark and stays; the search goes on behind it. -/
example :
    ifBlock.turns (fun path body => path ++ body)
      "\x7b\x7b#if a\x7d\x7d\x7b\x7b#if b\x7d\x7dx\x7b\x7b/if\x7d\x7dy".toList 20 ⟨0, 0, []⟩ =
        .ok (some "\x7b\x7b#if a\x7d\x7dbxy".toList) := by
  cbv

end Folio.Template
