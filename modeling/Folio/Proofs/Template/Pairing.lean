import Folio.Proofs.Template.Stability
import Mathlib.Algebra.Ring.Int.Defs

/-!
# How blocks pair

A text is read as tokens, which are opening tags, closing marks and single characters. The
closing mark of a block is the first one behind its opening tag at which the marks exceed the
tags, so the tokens of a body are balanced.

What is replaced in a text are its blocks. A text is cut into blocks and the gaps between them in
one way only: no opening tag in a gap has a closing mark, and what the blocks are made of is fixed
by their opening tags.
-/

namespace Folio.Template

-- ---------------------------------------------------------------------------
-- Tags that end at the first closing brace
-- ---------------------------------------------------------------------------

namespace Tag

variable {tag : Tag} {more text run rest : List Char}

theorem match?_eq_some_iff (hc : tag.closing = '}' :: more) :
    tag.match? text = some (run, rest) ↔
      text = tag.source run ++ rest ∧ '}' ∉ run ∧ tag.admits run = true := by
  constructor
  · intro h
    have htext := eq_source_append h
    simp only [match?, Option.bind_eq_bind, Option.bind_eq_some_iff] at h
    obtain ⟨inside, -, after, -, h⟩ := h
    split at h
    · rename_i ha
      simp only [Option.some.injEq, Prod.mk.injEq] at h
      obtain ⟨rfl, rfl⟩ := h
      refine ⟨htext, fun hm => ?_, ha⟩
      simpa using List.mem_takeWhile_imp hm
    · cases h
  · rintro ⟨rfl, hr, ha⟩
    rw [match?_source hc hr, if_pos ha]

/-- What follows a text does not change the tag at its front. -/
theorem match?_append (hc : tag.closing = '}' :: more) (h : tag.match? text = some (run, rest))
    (behind : List Char) : tag.match? (text ++ behind) = some (run, rest ++ behind) := by
  obtain ⟨rfl, hr, ha⟩ := (match?_eq_some_iff hc).mp h
  exact (match?_eq_some_iff hc).mpr ⟨List.append_assoc .., hr, ha⟩

end Tag

namespace BlockKind

/-- Opening tags end at the first closing brace behind their start. -/
structure IsBraced (kind : BlockKind) : Prop where
  closing_eq : kind.opening.closing = ['}', '}']
  notMem : '}' ∉ kind.opening.opening

end BlockKind

theorem Block.isBraced (b : Block) : b.kind.IsBraced := by
  cases b <;> exact ⟨rfl, by decide⟩

-- ---------------------------------------------------------------------------
-- Tokens
-- ---------------------------------------------------------------------------

/-- What a text is read as when the closing mark of a block is looked for. -/
inductive Token where
  | opening (run : List Char)
  | closing
  | other (c : Char)
  deriving DecidableEq, Repr

/-- How many blocks a token opens. -/
def Token.opens : Token → Int
  | .opening _ => 1
  | .closing => -1
  | .other _ => 0

/-- How many more blocks are opened than closed. -/
def level (tokens : List Token) : Int :=
  (tokens.map Token.opens).sum

@[simp] theorem level_nil : level [] = 0 := rfl

@[simp] theorem level_cons (token : Token) (tokens : List Token) :
    level (token :: tokens) = token.opens + level tokens := by
  simp [level]

@[simp] theorem level_append (tokens more : List Token) :
    level (tokens ++ more) = level tokens + level more := by
  simp [level]

/-- Blocks are closed only after they were opened, and all of them are. -/
structure Balanced (tokens : List Token) : Prop where
  nonneg : ∀ front, front <+: tokens → 0 ≤ level front
  settled : level tokens = 0

namespace BlockKind

variable {kind : BlockKind} {text run rest body after : List Char}

/-- The tokens of a text, from the left and without overlap. -/
def tokens (kind : BlockKind) (text : List Char) : List Token :=
  match text with
  | [] => []
  | c :: others =>
    match _h : kind.opening.match? (c :: others) with
    | some (run, rest) => .opening run :: kind.tokens rest
    | none =>
      match _hc : afterMark? kind.closing (c :: others) with
      | some rest => .closing :: kind.tokens rest
      | none => .other c :: kind.tokens others
termination_by text.length
decreasing_by
  · exact Tag.length_lt_of_match? _h
  · have := List.length_pos_iff.mpr kind.closing_ne_nil
    rw [afterMark?_eq_some.mp _hc, List.length_append]
    omega
  · simp

def tokenText (kind : BlockKind) : Token → List Char
  | .opening run => kind.opening.source run
  | .closing => kind.closing
  | .other c => [c]

/-- Tokens as they are written. -/
def textOf (kind : BlockKind) (tokens : List Token) : List Char :=
  tokens.flatMap kind.tokenText

@[simp] theorem textOf_nil : kind.textOf [] = [] := rfl

@[simp] theorem textOf_cons (token : Token) (tokens : List Token) :
    kind.textOf (token :: tokens) = kind.tokenText token ++ kind.textOf tokens :=
  List.flatMap_cons

theorem textOf_append (tokens more : List Token) :
    kind.textOf (tokens ++ more) = kind.textOf tokens ++ kind.textOf more :=
  List.flatMap_append

/-- No character is lost between the tokens. -/
theorem textOf_tokens (kind : BlockKind) (text : List Char) :
    kind.textOf (kind.tokens text) = text := by
  fun_induction kind.tokens text with
  | case1 => rfl
  | case2 c others run rest h ih => rw [textOf_cons, ih, tokenText, ← Tag.eq_source_append h]
  | case3 c others _ rest h ih => rw [textOf_cons, ih, tokenText, ← afterMark?_eq_some.mp h]
  | case4 c others _ _ ih => rw [textOf_cons, ih, tokenText, List.singleton_append]

theorem tokens_cons (kind : BlockKind) (c : Char) (others : List Char) :
    kind.tokens (c :: others) = match kind.opening.match? (c :: others) with
      | some (run, rest) => .opening run :: kind.tokens rest
      | none => match afterMark? kind.closing (c :: others) with
        | some rest => .closing :: kind.tokens rest
        | none => .other c :: kind.tokens others := by
  rw [tokens]
  split <;> rename_i h <;> rw [h]
  split <;> rename_i hc <;> rw [hc]

theorem tokens_of_match (h : kind.opening.match? text = some (run, rest)) :
    kind.tokens text = .opening run :: kind.tokens rest := by
  cases text with
  | nil => exact absurd (Tag.length_lt_of_match? h) (Nat.not_lt_zero _)
  | cons c others => rw [tokens_cons, h]

theorem tokens_of_closing (hn : kind.opening.match? text = none)
    (hc : afterMark? kind.closing text = some rest) :
    kind.tokens text = .closing :: kind.tokens rest := by
  cases text with
  | nil => exact absurd (List.nil_eq_append_iff.mp (afterMark?_eq_some.mp hc)).1 kind.closing_ne_nil
  | cons c others => rw [tokens_cons, hn, hc]

theorem tokens_of_other {c : Char} (hn : kind.opening.match? (c :: text) = none)
    (hc : afterMark? kind.closing (c :: text) = none) :
    kind.tokens (c :: text) = .other c :: kind.tokens text := by
  rw [tokens_cons, hn, hc]

/-- Cuts tokens at the mark that brings `depth` open blocks down to none. -/
def pair (depth : Nat) : List Token → Option (List Token × List Token)
  | [] => none
  | .closing :: rest =>
    if depth ≤ 1 then some ([], rest)
    else (pair (depth - 1) rest).map fun (before, behind) => (.closing :: before, behind)
  | .opening run :: rest =>
    (pair (depth + 1) rest).map fun (before, behind) => (.opening run :: before, behind)
  | .other c :: rest =>
    (pair depth rest).map fun (before, behind) => (.other c :: before, behind)

/-- Closing marks are found among the tokens. -/
theorem close?_eq_pair (kind : BlockKind) (depth : Nat) (text : List Char) :
    kind.close? depth text = (pair depth (kind.tokens text)).map fun (before, behind) =>
      (kind.textOf before, kind.textOf behind) := by
  fun_induction kind.close? depth text with
  | case1 =>
    rw [tokens]
    rfl
  | case2 depth c others run rest h ih =>
    rw [tokens_of_match h, ih, pair, Option.map_map, Option.map_map]
    rfl
  | case3 depth c others hn rest hc hd =>
    rw [tokens_of_closing hn hc, pair, if_pos hd, Option.map_some]
    exact congrArg (fun after => some ([], after)) (textOf_tokens kind rest).symm
  | case4 depth c others hn rest hc hd ih =>
    rw [tokens_of_closing hn hc, ih, pair, if_neg hd, Option.map_map, Option.map_map]
    rfl
  | case5 depth c others hn hc ih =>
    rw [tokens_of_other hn hc, ih, pair, Option.map_map, Option.map_map]
    rfl

/-- The mark behind `before` is the first at which the blocks closed are `depth` more than the
blocks opened. -/
structure Pairs (depth : Nat) (tokens before behind : List Token) : Prop where
  tokens_eq : tokens = before ++ .closing :: behind
  opened : ∀ front, front <+: before → 0 < depth + level front
  settled : depth + level before = 1

theorem pairs_cons_iff {depth next : Nat} {token : Token} {tokens before behind : List Token}
    (hd : 1 ≤ depth) (hn : 1 ≤ next) (ho : (next : Int) = depth + token.opens) :
    Pairs depth (token :: tokens) before behind ↔
      ∃ others, Pairs next tokens others behind ∧ token :: others = before := by
  constructor
  · rintro ⟨ht, hp, hl⟩
    cases before with
    | nil =>
      obtain ⟨rfl, -⟩ := List.cons.inj ht
      simp only [level_nil, Token.opens] at hl ho
      omega
    | cons first others =>
      obtain ⟨rfl, rfl⟩ := List.cons.inj ht
      refine ⟨others, ⟨rfl, fun front hf => ?_, ?_⟩, rfl⟩
      · have hfront := hp (token :: front) ((List.prefix_cons_inj token).mpr hf)
        rw [level_cons] at hfront
        omega
      · rw [level_cons] at hl
        omega
  · rintro ⟨others, ⟨rfl, hp, hl⟩, rfl⟩
    refine ⟨rfl, fun front hf => ?_, ?_⟩
    · rcases List.prefix_cons_iff.mp hf with rfl | ⟨more, rfl, hm⟩
      · rw [level_nil]
        omega
      · have hfront := hp more hm
        rw [level_cons]
        omega
    · rw [level_cons]
      omega

theorem pair_eq_some_iff {depth : Nat} (hd : 1 ≤ depth) {tokens before behind : List Token} :
    pair depth tokens = some (before, behind) ↔ Pairs depth tokens before behind := by
  induction tokens generalizing depth before with
  | nil =>
    refine ⟨nofun, fun h => ?_⟩
    have ht := h.tokens_eq
    simp at ht
  | cons token tokens ih =>
    -- The blocks that are open behind the token are those that the rest is to close.
    have hstep {next : Nat} (hn : 1 ≤ next) (ho : (next : Int) = depth + token.opens) :
        ((pair next tokens).map fun (before, behind) => (token :: before, behind)) =
          some (before, behind) ↔ Pairs depth (token :: tokens) before behind := by
      rw [pairs_cons_iff hd hn ho]
      constructor
      · intro h
        obtain ⟨⟨others, _⟩, hp, he⟩ := Option.map_eq_some_iff.mp h
        cases he
        exact ⟨others, (ih hn).mp hp, rfl⟩
      · rintro ⟨others, hp, rfl⟩
        rw [(ih hn).mpr hp]
        rfl
    cases token with
    | opening run => exact hstep (Nat.le_add_left 1 depth) rfl
    | other c => exact hstep hd (Int.add_zero _).symm
    | closing =>
      rw [pair]
      split
      · have hone : depth = 1 := by omega
        subst hone
        constructor
        · rintro ⟨⟩
          exact ⟨rfl, fun front hf => by rw [List.prefix_nil.mp hf]; decide, rfl⟩
        · rintro ⟨ht, hp, hl⟩
          cases before with
          | nil =>
            obtain ⟨-, rfl⟩ := List.cons.inj ht
            rfl
          | cons first others =>
            obtain ⟨rfl, -⟩ := List.cons.inj ht
            have hfront := hp [.closing] ⟨others, rfl⟩
            cases hfront
      · exact hstep (by omega) (by simp only [Token.opens]; omega)

-- ---------------------------------------------------------------------------
-- Closing marks
-- ---------------------------------------------------------------------------

/-- Behind an opening tag stand the body of its block, the closing mark, and the rest. The mark
is the first one at which the closing marks exceed the opening tags. -/
def ClosedBy (kind : BlockKind) (inside body after : List Char) : Prop :=
  ∃ before behind, kind.tokens inside = before ++ .closing :: behind ∧
    level (before ++ [.closing]) < 0 ∧ (∀ front, front <+: before → 0 ≤ level front) ∧
    kind.textOf before = body ∧ kind.textOf behind = after

theorem closedBy_iff :
    kind.ClosedBy rest body after ↔ kind.close? 1 rest = some (body, after) := by
  rw [close?_eq_pair]
  simp only [Option.map_eq_some_iff, Prod.exists, Prod.mk.injEq,
    pair_eq_some_iff (Nat.le_refl 1)]
  constructor
  · rintro ⟨before, behind, ht, hl, hp, rfl, rfl⟩
    have hbefore := hp before (List.prefix_refl before)
    simp only [level_append, level_cons, level_nil, Token.opens] at hl
    exact ⟨before, behind, ⟨ht, fun front hf => by have := hp front hf; omega, by omega⟩, rfl, rfl⟩
  · rintro ⟨before, behind, ⟨ht, hp, hl⟩, rfl, rfl⟩
    refine ⟨before, behind, ht, ?_, fun front hf => by have := hp front hf; omega, rfl, rfl⟩
    simp only [level_append, level_cons, level_nil, Token.opens]
    omega

/-- The first token of a text, and what follows it. -/
def Reads (kind : BlockKind) (text rest : List Char) : Token → Prop
  | .opening run => kind.opening.match? text = some (run, rest)
  | .closing => kind.opening.match? text = none ∧ text = kind.closing ++ rest
  | .other c =>
    text = c :: rest ∧ kind.opening.match? text = none ∧ ¬ kind.closing <+: text

theorem afterMark?_eq_none {mark text : List Char} :
    afterMark? mark text = none ↔ ¬ mark <+: text := by
  rw [Option.eq_none_iff_forall_ne_some]
  simp only [ne_eq, afterMark?_eq_some]
  exact ⟨fun h ⟨rest, hr⟩ => h rest hr.symm, fun h rest hr => h ⟨rest, hr.symm⟩⟩

theorem tokens_of_reads {token : Token} (h : kind.Reads text rest token) :
    kind.tokens text = token :: kind.tokens rest := by
  cases token with
  | opening run => exact tokens_of_match h
  | closing => exact tokens_of_closing h.1 (afterMark?_eq_some.mpr h.2)
  | other c =>
    obtain ⟨rfl, hn, hc⟩ := h
    exact tokens_of_other hn (afterMark?_eq_none.mpr hc)

theorem exists_reads {token : Token} {more : List Token} (h : kind.tokens text = token :: more) :
    ∃ rest, kind.Reads text rest token ∧ kind.tokens rest = more := by
  unfold tokens at h
  split at h
  · cases h
  · split at h
    · rename_i run rest hm
      cases h
      exact ⟨rest, hm, rfl⟩
    · rename_i hn
      split at h
      · rename_i rest hc
        cases h
        exact ⟨rest, ⟨hn, afterMark?_eq_some.mp hc⟩, rfl⟩
      · rename_i c others hc
        cases h
        exact ⟨others, ⟨rfl, hn, afterMark?_eq_none.mp hc⟩, rfl⟩

theorem Reads.eq_append {token : Token} (h : kind.Reads text rest token) :
    text = kind.tokenText token ++ rest := by
  cases token with
  | opening run => exact Tag.eq_source_append h
  | closing => exact h.2
  | other c => exact h.1

/-- A token is read by itself: what stands behind the text in which it is found does not count. -/
theorem IsBraced.reads (hk : kind.IsBraced) {token : Token} {front behind : List Char}
    (h : kind.Reads (kind.tokenText token ++ front ++ behind) (front ++ behind) token) :
    kind.Reads (kind.tokenText token ++ front) front token := by
  have hnone (text : List Char) (hn : kind.opening.match? (text ++ behind) = none) :
      kind.opening.match? text = none := by
    rw [Option.eq_none_iff_forall_ne_some]
    rintro ⟨run, rest⟩ hm
    rw [Tag.match?_append hk.closing_eq hm behind] at hn
    cases hn
  cases token with
  | opening run =>
    obtain ⟨-, hr, ha⟩ := (Tag.match?_eq_some_iff hk.closing_eq).mp h
    exact (Tag.match?_eq_some_iff hk.closing_eq).mpr ⟨rfl, hr, ha⟩
  | closing => exact ⟨hnone _ h.1, rfl⟩
  | other c =>
    obtain ⟨-, hn, hc⟩ := h
    exact ⟨rfl, hnone _ hn, fun hp => hc (hp.trans (List.prefix_append _ behind))⟩

/-- The tokens at the front of a text are the tokens of what they are written as. -/
theorem IsBraced.tokens_textOf (hk : kind.IsBraced) {tokens more : List Token}
    (h : kind.tokens text = tokens ++ more) : kind.tokens (kind.textOf tokens) = tokens := by
  induction tokens generalizing text with
  | nil => rw [textOf_nil, BlockKind.tokens]
  | cons token tokens ih =>
    rw [List.cons_append] at h
    obtain ⟨rest, hr, ht⟩ := exists_reads h
    have hrest : rest = kind.textOf tokens ++ kind.textOf more := by
      rw [← textOf_append, ← ht, textOf_tokens]
    have htext := hr.eq_append
    rw [hrest, ← List.append_assoc] at htext
    rw [htext, hrest] at hr
    rw [textOf_cons, tokens_of_reads (hk.reads hr), ih ht]

/-- The body of a block is balanced by itself. -/
theorem IsBraced.balanced (hk : kind.IsBraced) (h : kind.ClosedBy rest body after) :
    Balanced (kind.tokens body) := by
  obtain ⟨before, behind, ht, hl, hp, rfl, -⟩ := h
  have hbefore := hp before (List.prefix_refl before)
  rw [hk.tokens_textOf ht]
  refine ⟨hp, ?_⟩
  simp only [level_append, level_cons, level_nil, Token.opens] at hl
  omega

-- ---------------------------------------------------------------------------
-- Blocks and gaps
-- ---------------------------------------------------------------------------

/-- A piece as it stands in a text. -/
def pieceText (kind : BlockKind) : Piece → List Char
  | .gap gap => gap
  | .block run body => kind.source run body

/-- Pieces put together. -/
def join (kind : BlockKind) (pieces : List Piece) : List Char :=
  pieces.flatMap kind.pieceText

@[simp] theorem join_nil : kind.join [] = [] := rfl

@[simp] theorem join_cons (piece : Piece) (pieces : List Piece) :
    kind.join (piece :: pieces) = kind.pieceText piece ++ kind.join pieces :=
  List.flatMap_cons

/-- A text starts with an opening tag that has a closing mark. -/
def StartsBlock (kind : BlockKind) (text : List Char) : Prop :=
  ∃ run rest body after, kind.opening.match? text = some (run, rest) ∧
    kind.ClosedBy rest body after

/-- No block starts in a text, with another one behind it. -/
def NoBlockIn (kind : BlockKind) (text rest : List Char) : Prop :=
  ∀ before behind, text = before ++ behind → behind ≠ [] → ¬ kind.StartsBlock (behind ++ rest)

/-- Pieces are a cutting of the text that they make up: each block is an opening tag, a body and
the closing mark of the tag, and nowhere in a gap stands an opening tag with a closing mark. No
gap is empty or next to another. -/
def IsCutting (kind : BlockKind) : List Piece → Prop
  | [] => True
  | .block run body :: pieces =>
    kind.opening.match? (kind.source run body ++ kind.join pieces) =
        some (run, body ++ (kind.closing ++ kind.join pieces)) ∧
      kind.ClosedBy (body ++ (kind.closing ++ kind.join pieces)) body (kind.join pieces) ∧
      kind.IsCutting pieces
  | .gap gap :: pieces =>
    gap ≠ [] ∧ kind.NoBlockIn gap (kind.join pieces) ∧
      (∀ other others, pieces ≠ .gap other :: others) ∧ kind.IsCutting pieces

theorem noBlockIn_nil (kind : BlockKind) (rest : List Char) : kind.NoBlockIn [] rest := by
  intro before behind h hne
  exact absurd (List.nil_eq_append_iff.mp h).2 hne

theorem noBlockIn_cons {c : Char} :
    kind.NoBlockIn (c :: text) rest ↔
      ¬ kind.StartsBlock (c :: (text ++ rest)) ∧ kind.NoBlockIn text rest := by
  constructor
  · intro h
    exact ⟨h [] (c :: text) rfl (List.cons_ne_nil c text),
      fun before behind ht => h (c :: before) behind (congrArg (c :: ·) ht)⟩
  · rintro ⟨hc, h⟩ before behind ht hne
    cases before with
    | nil =>
      rw [List.nil_append] at ht
      rw [← ht]
      exact hc
    | cons d before => exact h before behind (List.cons.inj ht).2 hne

/-- Characters put in front of the first gap are in front of all that gaps leave as it is. -/
theorem flatMap_prependGap {f : Piece → List Char} (hf : ∀ gap, f (.gap gap) = gap)
    (gap : List Char) (pieces : List Piece) :
    (prependGap gap pieces).flatMap f = gap ++ pieces.flatMap f := by
  fun_cases prependGap gap pieces with
  | case1 other pieces => simp [hf]
  | case2 pieces _ => simp [hf]

theorem join_prependGap (gap : List Char) (pieces : List Piece) :
    kind.join (prependGap gap pieces) = gap ++ kind.join pieces :=
  flatMap_prependGap (fun _ => rfl) gap pieces

theorem prependGap_prependGap (gap more : List Char) (pieces : List Piece) :
    prependGap gap (prependGap more pieces) = prependGap (gap ++ more) pieces := by
  fun_cases prependGap more pieces with
  | case1 other pieces => simp [prependGap]
  | case2 pieces hp => cases pieces with
    | nil => rfl
    | cons piece pieces => cases piece with
      | gap other => exact absurd rfl (hp other pieces)
      | block run body => rfl

/-- Nothing is lost between the pieces. -/
theorem join_cut (kind : BlockKind) (text : List Char) : kind.join (kind.cut text) = text := by
  fun_induction kind.cut text with
  | case1 => rfl
  | case2 c others run rest hm body after hc ih =>
    rw [join_cons, ih, pieceText, ← eq_source_append hm hc]
  | case3 c others run rest hm _ ih => rw [join_prependGap, ih, ← Tag.eq_source_append hm]
  | case4 c others _ ih => rw [join_prependGap, ih, List.singleton_append]

/-- An opening tag ends at the first closing brace, so another one that starts inside of it ends
there too. -/
theorem IsBraced.rest_eq (hk : kind.IsBraced) {front tail run' rest' : List Char}
    (h : kind.opening.match? (front ++ (tail ++ rest)) = some (run, rest)) (ht : tail ≠ [])
    (h' : kind.opening.match? (tail ++ rest) = some (run', rest')) : rest' = rest := by
  obtain ⟨hs, hr, -⟩ := (Tag.match?_eq_some_iff hk.closing_eq).mp h
  obtain ⟨hs', hr', -⟩ := (Tag.match?_eq_some_iff hk.closing_eq).mp h'
  have hmark : '}' ∉ kind.opening.opening ++ run := by simp [hk.notMem, hr]
  have hmark' : '}' ∉ kind.opening.opening ++ run' := by simp [hk.notMem, hr']
  have hfront : front ++ tail = (kind.opening.opening ++ run) ++ ['}', '}'] := by
    rw [← List.append_assoc] at hs
    rw [← hk.closing_eq]
    exact List.append_cancel_right hs
  have htail : tail ++ rest = (kind.opening.opening ++ run') ++ '}' :: '}' :: rest' := by
    rw [hs', Tag.source, hk.closing_eq, List.append_assoc]
    rfl
  rcases List.append_eq_append_iff.mp hfront with ⟨inner, hi, he⟩ | ⟨inner, hi, he⟩
  · have hinner : '}' ∉ inner := fun hm => hmark (hi ▸ List.mem_append_right _ hm)
    have hcut : inner ++ '}' :: ('}' :: rest) =
        (kind.opening.opening ++ run') ++ '}' :: ('}' :: rest') := by
      rw [← htail, he, List.append_assoc]
      rfl
    obtain ⟨-, hrest⟩ := Text.eq_of_append_cons hinner hmark' hcut
    exact (List.cons.inj hrest).2.symm
  · -- Only closing braces are left of the first tag, and no tag begins with one.
    obtain ⟨d, others, rfl⟩ := List.exists_cons_of_ne_nil ht
    obtain ⟨o, mark, hm⟩ := List.exists_cons_of_ne_nil kind.opening.opening_ne_nil
    have hd : d ∈ ['}', '}'] := he ▸ List.mem_append_right _ List.mem_cons_self
    rw [hm] at htail
    obtain ⟨rfl, -⟩ := List.cons.inj htail
    have hbrace : d = '}' := by simpa using hd
    exact absurd (hbrace ▸ hm ▸ List.mem_cons_self) hk.notMem

theorem not_startsBlock_iff :
    ¬ kind.StartsBlock text ↔
      ∀ run rest, kind.opening.match? text = some (run, rest) → kind.close? 1 rest = none := by
  simp only [StartsBlock, closedBy_iff, Option.eq_none_iff_forall_ne_some]
  constructor
  · rintro h run rest hm ⟨body, after⟩ hc
    exact h ⟨run, rest, body, after, hm, hc⟩
  · rintro h ⟨run, rest, body, after, hm, hc⟩
    exact h run rest hm _ hc

/-- What is left of an opening tag without a partner is part of the gap as well. -/
theorem IsBraced.cut_inside (hk : kind.IsBraced) {front tail : List Char}
    (h : kind.opening.match? (front ++ (tail ++ rest)) = some (run, rest)) (ht : tail ≠ [])
    (hc : kind.close? 1 rest = none) :
    kind.cut (tail ++ rest) = prependGap tail (kind.cut rest) := by
  induction tail generalizing front with
  | nil => exact absurd rfl ht
  | cons c tail ih =>
    cases hm : kind.opening.match? (c :: tail ++ rest) with
    | some parts =>
      obtain ⟨run', rest'⟩ := parts
      have hrest := hk.rest_eq h ht hm
      subst hrest
      have htail : c :: tail = kind.opening.source run' :=
        List.append_cancel_right (Tag.eq_source_append hm)
      rw [cut_of_unclosed hm hc, htail]
    | none =>
      rw [List.cons_append] at hm ⊢
      rw [cut_of_match?_eq_none hm]
      rcases eq_or_ne tail [] with rfl | hne
      · rfl
      · have hnext : kind.opening.match? ((front ++ [c]) ++ (tail ++ rest)) = some (run, rest) := by
          rw [List.append_assoc]
          exact h
        rw [ih hnext hne, prependGap_prependGap, List.singleton_append]

/-- A character at which no block starts is part of a gap. -/
theorem IsBraced.cut_cons (hk : kind.IsBraced) {c : Char} (h : ¬ kind.StartsBlock (c :: text)) :
    kind.cut (c :: text) = prependGap [c] (kind.cut text) := by
  cases hm : kind.opening.match? (c :: text) with
  | none => exact cut_of_match?_eq_none hm
  | some parts =>
    obtain ⟨run, rest⟩ := parts
    have hc := not_startsBlock_iff.mp h run rest hm
    have hsource := Tag.eq_source_append hm
    obtain ⟨o, mark, ho⟩ := List.exists_cons_of_ne_nil kind.opening.opening_ne_nil
    have htext : kind.opening.source run = c :: (mark ++ run ++ kind.opening.closing) ∧
        text = mark ++ run ++ kind.opening.closing ++ rest := by
      rw [Tag.source, ho] at hsource ⊢
      obtain ⟨rfl, rfl⟩ := List.cons.inj hsource
      exact ⟨rfl, rfl⟩
    have hne : mark ++ run ++ kind.opening.closing ≠ [] := by simp [hk.closing_eq]
    have hin : kind.opening.match? ([c] ++ (mark ++ run ++ kind.opening.closing ++ rest)) =
        some (run, rest) := by
      rw [← htext.2]
      exact hm
    rw [cut_of_unclosed hm hc, htext.1, htext.2, hk.cut_inside hin hne hc, prependGap_prependGap,
      List.singleton_append]

theorem IsBraced.cut_gap (hk : kind.IsBraced) (hne : text ≠ []) (h : kind.NoBlockIn text rest) :
    kind.cut (text ++ rest) = prependGap text (kind.cut rest) := by
  induction text with
  | nil => exact absurd rfl hne
  | cons c text ih =>
    obtain ⟨hc, h⟩ := noBlockIn_cons.mp h
    rw [List.cons_append, hk.cut_cons hc]
    rcases eq_or_ne text [] with rfl | hnext
    · rfl
    · rw [ih hnext h, prependGap_prependGap, List.singleton_append]

/-- A text is cut in one way only. -/
theorem IsBraced.cut_join (hk : kind.IsBraced) {pieces : List Piece}
    (h : kind.IsCutting pieces) : kind.cut (kind.join pieces) = pieces := by
  induction pieces with
  | nil => rw [join_nil, cut]
  | cons piece pieces ih =>
    cases piece with
    | block run body =>
      obtain ⟨hm, hc, hp⟩ := h
      rw [join_cons, pieceText, cut_of_match hm (closedBy_iff.mp hc), ih hp]
    | gap gap =>
      obtain ⟨hne, hg, hother, hp⟩ := h
      rw [join_cons, pieceText, hk.cut_gap hne hg, ih hp]
      cases pieces with
      | nil => rfl
      | cons next others =>
        cases next with
        | gap other => exact absurd rfl (hother other others)
        | block run body => rfl

theorem IsBraced.balanced_of_mem (hk : kind.IsBraced) {pieces : List Piece}
    (h : kind.IsCutting pieces) (hm : .block run body ∈ pieces) : Balanced (kind.tokens body) := by
  induction pieces with
  | nil => cases hm
  | cons piece pieces ih =>
    cases piece with
    | block run' body' =>
      obtain ⟨-, hc, hp⟩ := h
      rcases List.mem_cons.mp hm with heq | hm
      · cases heq
        exact hk.balanced hc
      · exact ih hp hm
    | gap gap =>
      obtain ⟨-, -, -, hp⟩ := h
      exact ih hp (by simpa using hm)

/-- A character at which no block starts joins the first gap. -/
theorem IsCutting.prependGap {c : Char} {pieces : List Piece} (h : kind.IsCutting pieces)
    (hc : ¬ kind.StartsBlock (c :: kind.join pieces)) :
    kind.IsCutting (prependGap [c] pieces) := by
  have hfirst : kind.NoBlockIn [c] (kind.join pieces) :=
    noBlockIn_cons.mpr ⟨hc, kind.noBlockIn_nil _⟩
  cases pieces with
  | nil => exact ⟨List.cons_ne_nil c [], hfirst, nofun, trivial⟩
  | cons piece pieces =>
    cases piece with
    | block run body => exact ⟨List.cons_ne_nil c [], hfirst, nofun, h⟩
    | gap gap =>
      obtain ⟨-, hg, hother, hp⟩ := h
      exact ⟨List.cons_ne_nil c gap, noBlockIn_cons.mpr ⟨hc, hg⟩, hother, hp⟩

theorem IsBraced.isCutting_cut (hk : kind.IsBraced) (text : List Char) :
    kind.IsCutting (kind.cut text) := by
  -- Induction on the length: a block leaves what follows it, and a gap all but one character.
  induction hn : text.length using Nat.strong_induction_on generalizing text with
  | _ n ih =>
    subst hn
    by_cases hs : kind.StartsBlock text
    · obtain ⟨run, rest, body, after, hm, hc⟩ := hs
      have hclose := closedBy_iff.mp hc
      have hafter : after.length < text.length := by
        have := Tag.length_lt_of_match? hm
        have := length_lt_of_close? hclose
        omega
      rw [eq_append_of_close? hclose] at hc
      rw [cut_of_match hm hclose]
      refine ⟨?_, ?_, ih _ hafter after rfl⟩ <;> rw [join_cut]
      · rw [← eq_source_append hm hclose, hm, eq_append_of_close? hclose]
      · exact hc
    · cases text with
      | nil =>
        rw [cut]
        trivial
      | cons c others =>
        rw [hk.cut_cons hs]
        refine (ih _ (Nat.lt_succ_self _) others rfl).prependGap ?_
        rwa [join_cut]

/-- The pieces of a text are its cutting. -/
theorem IsBraced.isCutting_iff (hk : kind.IsBraced) {pieces : List Piece} :
    kind.join pieces = text ∧ kind.IsCutting pieces ↔ pieces = kind.cut text := by
  constructor
  · rintro ⟨rfl, h⟩
    exact (hk.cut_join h).symm
  · rintro rfl
    exact ⟨join_cut kind text, hk.isCutting_cut text⟩

end BlockKind

end Folio.Template
