import Folio.Text.Wildcard
import Mathlib.Data.List.Forall2
import Mathlib.Data.List.Infix

/-!
# What wildcards describe

A pattern describes a text that falls into parts, one for each piece in its order. A pattern
with several runs describes most texts in many ways, and matching tries none of them: after
each piece the row tells for every front of the text whether the pieces so far describe it.
That is what one piece does to a row, and so what the whole pattern does.
-/

namespace Folio.Text.Wildcard

/-- The texts that a piece stands for. -/
def Piece.Takes : Piece → List Char → Prop
  | .one p, part => ∃ c, p c = true ∧ part = [c]
  | .run p, part => ∀ c ∈ part, p c = true

/-- The text is made of parts, one for each piece in its order. -/
def Describes (pieces : List Piece) (text : List Char) : Prop :=
  ∃ parts, List.Forall₂ Piece.Takes pieces parts ∧ text = parts.flatten

theorem describes_nil {text : List Char} : Describes [] text ↔ text = [] := by
  constructor
  · rintro ⟨parts, hp, rfl⟩
    rw [List.forall₂_nil_left_iff.mp hp, List.flatten_nil]
  · rintro rfl
    exact ⟨[], .nil, rfl⟩

theorem describes_cons {piece : Piece} {pieces : List Piece} {text : List Char} :
    Describes (piece :: pieces) text ↔
      ∃ part rest, piece.Takes part ∧ Describes pieces rest ∧ text = part ++ rest := by
  constructor
  · rintro ⟨parts, hp, rfl⟩
    obtain ⟨part, rest, ht, hr, rfl⟩ := List.forall₂_cons_left_iff.mp hp
    exact ⟨part, rest.flatten, ht, ⟨rest, hr, rfl⟩, List.flatten_cons⟩
  · rintro ⟨part, _, ht, ⟨parts, hp, rfl⟩, rfl⟩
    exact ⟨part :: parts, .cons ht hp, List.flatten_cons.symm⟩

/-- A text made of a front that is in question and of one more part. -/
def Extended (P : List Char → Prop) (piece : Piece) (text : List Char) : Prop :=
  ∃ front part, P front ∧ piece.Takes part ∧ text = front ++ part

theorem describes_append {first second : List Piece} {text : List Char} :
    Describes (first ++ second) text ↔
      ∃ front rest, Describes first front ∧ Describes second rest ∧ text = front ++ rest := by
  induction first generalizing text with
  | nil => simp [describes_nil]
  | cons piece first ih =>
    simp only [List.cons_append, describes_cons, ih]
    constructor
    · rintro ⟨part, _, ht, ⟨front, rest, hf, hr, rfl⟩, rfl⟩
      exact ⟨part ++ front, rest, ⟨part, front, ht, hf, rfl⟩, hr, (List.append_assoc ..).symm⟩
    · rintro ⟨_, rest, ⟨part, front, ht, hf, rfl⟩, hr, rfl⟩
      exact ⟨part, front ++ rest, ht, ⟨front, rest, hf, hr, rfl⟩, List.append_assoc ..⟩

theorem describes_concat {pieces : List Piece} {piece : Piece} {text : List Char} :
    Describes (pieces ++ [piece]) text ↔ Extended (Describes pieces) piece text := by
  simp [describes_append, describes_cons, describes_nil, Extended]

-- ---------------------------------------------------------------------------
-- Rows
-- ---------------------------------------------------------------------------

/-- The row tells of every front of the text whether it is in question, the empty one first. -/
def Marks (P : List Char → Prop) (text : List Char) (row : List Bool) : Prop :=
  List.Forall₂ (fun front reached => reached = true ↔ P front) text.inits row

section
variable {P Q : List Char → Prop} {c : Char} {text : List Char} {reached : Bool}
  {row : List Bool}

theorem marks_nil : Marks P [] row ↔ ∃ reached, row = [reached] ∧ (reached = true ↔ P []) := by
  constructor
  · intro h
    obtain ⟨reached, _, hr, ht, rfl⟩ := List.forall₂_cons_left_iff.mp h
    exact ⟨reached, by rw [List.forall₂_nil_left_iff.mp ht], hr⟩
  · rintro ⟨reached, rfl, hr⟩
    exact .cons hr .nil

theorem marks_cons :
    Marks P (c :: text) row ↔
      ∃ reached rest, row = reached :: rest ∧ (reached = true ↔ P []) ∧
        Marks (fun front => P (c :: front)) text rest := by
  unfold Marks
  rw [List.inits_cons, List.forall₂_cons_left_iff]
  simp only [List.forall₂_map_left_iff]
  constructor
  · rintro ⟨reached, rest, hr, ht, rfl⟩
    exact ⟨reached, rest, rfl, hr, ht⟩
  · rintro ⟨reached, rest, rfl, hr, ht⟩
    exact ⟨reached, rest, hr, ht, rfl⟩

theorem marks_cons_cons :
    Marks P (c :: text) (reached :: row) ↔
      (reached = true ↔ P []) ∧ Marks (fun front => P (c :: front)) text row := by
  simp [marks_cons]

theorem Marks.congr (h : Marks P text row) (hp : ∀ front, P front ↔ Q front) :
    Marks Q text row :=
  List.Forall₂.imp (fun front _ hr => hr.trans (hp front)) h

theorem Marks.exists_cons (h : Marks P text row) :
    ∃ reached rest, row = reached :: rest ∧ (reached = true ↔ P []) := by
  cases text with
  | nil =>
    obtain ⟨reached, rfl, hr⟩ := marks_nil.mp h
    exact ⟨reached, [], rfl, hr⟩
  | cons c text =>
    obtain ⟨reached, rest, rfl, hr, -⟩ := marks_cons.mp h
    exact ⟨reached, rest, rfl, hr⟩

/-- The last place of a row is about the whole text. -/
theorem Marks.getLastD (h : Marks P text row) (fallback : Bool) :
    row.getLastD fallback = true ↔ P text := by
  induction text generalizing P row fallback with
  | nil =>
    obtain ⟨reached, rfl, hr⟩ := marks_nil.mp h
    exact hr
  | cons c text ih =>
    obtain ⟨reached, rest, rfl, -, hrest⟩ := marks_cons.mp h
    rw [List.getLastD_cons]
    exact ih hrest reached

theorem Marks.not_of_notMem (h : Marks P text row) (hn : true ∉ row) {front rest : List Char}
    (ht : text = front ++ rest) : ¬ P front := by
  induction front generalizing P text row with
  | nil =>
    obtain ⟨reached, others, rfl, hr⟩ := h.exists_cons
    rw [← hr]
    rintro rfl
    exact hn List.mem_cons_self
  | cons c front ih =>
    subst ht
    obtain ⟨reached, others, rfl, -, hrest⟩ := marks_cons.mp h
    exact ih hrest (fun hm => hn (List.mem_cons_of_mem _ hm)) rfl

theorem marks_false (text : List Char) :
    Marks (fun _ => False) text (false :: text.map fun _ => false) := by
  induction text with
  | nil => exact marks_nil.mpr ⟨false, rfl, by simp⟩
  | cons c text ih => exact marks_cons_cons.mpr ⟨by simp, ih⟩

/-- In front of the first piece only the empty front is described. -/
theorem marks_start (text : List Char) :
    Marks (Describes []) text (true :: text.map fun _ => false) := by
  cases text with
  | nil => exact marks_nil.mpr ⟨true, rfl, by simp [describes_nil]⟩
  | cons c text =>
    refine marks_cons_cons.mpr ⟨by simp [describes_nil], (marks_false text).congr ?_⟩
    simp [describes_nil]

end

-- ---------------------------------------------------------------------------
-- One piece more
-- ---------------------------------------------------------------------------

section
variable {P : List Char → Prop} (p : Char → Bool) {text : List Char} {row : List Bool}

theorem not_extended_one_nil : ¬ Extended P (.one p) [] := by
  rintro ⟨front, part, -, ⟨c, -, rfl⟩, h⟩
  simp at h

theorem extended_one_cons {c : Char} {front : List Char} :
    Extended P (.one p) (c :: front) ↔
      (front = [] ∧ P [] ∧ p c = true) ∨
        Extended (fun front => P (c :: front)) (.one p) front := by
  constructor
  · rintro ⟨before, _, hb, ⟨d, hd, rfl⟩, h⟩
    cases before with
    | nil =>
      obtain ⟨rfl, rfl⟩ := List.cons.inj h
      exact .inl ⟨rfl, hb, hd⟩
    | cons e before =>
      obtain ⟨rfl, rfl⟩ := List.cons.inj h
      exact .inr ⟨before, [d], hb, ⟨d, hd, rfl⟩, rfl⟩
  · rintro (⟨rfl, hp, hc⟩ | ⟨before, part, hb, ht, rfl⟩)
    · exact ⟨[], [c], hp, ⟨c, hc, rfl⟩, rfl⟩
    · exact ⟨c :: before, part, hb, ht, rfl⟩

/-- `first` stands in front of the shifted row, and is about the empty front. -/
theorem Marks.shift (h : Marks P text row) (first : Bool) :
    Marks (fun front => (front = [] ∧ first = true) ∨ Extended P (.one p) front) text
      (first :: Wildcard.shift p text row) := by
  induction text generalizing P row first with
  | nil =>
    obtain ⟨reached, rfl, -⟩ := marks_nil.mp h
    exact marks_nil.mpr ⟨first, rfl, by simp [not_extended_one_nil]⟩
  | cons c text ih =>
    obtain ⟨reached, rest, rfl, hr, hrest⟩ := marks_cons.mp h
    refine marks_cons_cons.mpr ⟨by simp [not_extended_one_nil], ?_⟩
    refine (ih hrest (reached && p c)).congr fun front => ?_
    rw [extended_one_cons, Bool.and_eq_true, hr]
    simp

theorem extended_run_nil : Extended P (.run p) [] ↔ P [] := by
  constructor
  · rintro ⟨front, part, hf, -, h⟩
    rwa [(List.append_eq_nil_iff.mp h.symm).1] at hf
  · exact fun h => ⟨[], [], h, by simp [Piece.Takes], rfl⟩

theorem extended_run_cons {c : Char} {front : List Char} :
    Extended P (.run p) (c :: front) ↔
      (P [] ∧ ∀ d ∈ c :: front, p d = true) ∨
        Extended (fun front => P (c :: front)) (.run p) front := by
  constructor
  · rintro ⟨before, part, hb, ht, h⟩
    cases before with
    | nil => exact .inl ⟨hb, h ▸ ht⟩
    | cons e before =>
      obtain ⟨rfl, rfl⟩ := List.cons.inj h
      exact .inr ⟨before, part, hb, ht, rfl⟩
  · rintro (⟨hp, hr⟩ | ⟨before, part, hb, ht, rfl⟩)
    · exact ⟨[], c :: front, hp, hr, rfl⟩
    · exact ⟨c :: before, part, hb, ht, rfl⟩

/-- `carried` tells of a run that began before the text. -/
theorem Marks.spread {reached : Bool} (h : Marks P text (reached :: row)) (carried : Bool) :
    Marks (fun front =>
        (carried = true ∧ ∀ c ∈ front, p c = true) ∨ Extended P (.run p) front) text
      ((reached || carried) :: Wildcard.spread p (reached || carried) text row) := by
  induction text generalizing P reached row carried with
  | nil =>
    obtain ⟨_, he, hr⟩ := marks_nil.mp h
    cases he
    refine marks_nil.mpr ⟨_, rfl, ?_⟩
    rw [extended_run_nil, Bool.or_eq_true, hr]
    simp [or_comm]
  | cons c text ih =>
    obtain ⟨hr, hrest⟩ := marks_cons_cons.mp h
    obtain ⟨next, others, rfl, -⟩ := hrest.exists_cons
    refine marks_cons_cons.mpr ⟨?_, ?_⟩
    · rw [extended_run_nil, Bool.or_eq_true, hr]
      simp [or_comm]
    · refine (ih hrest ((reached || carried) && p c)).congr fun front => ?_
      rw [extended_run_cons, Bool.and_eq_true, Bool.or_eq_true, hr, List.forall_mem_cons]
      tauto

theorem Marks.advance (h : Marks P text row) (piece : Piece) :
    Marks (Extended P piece) text (piece.advance text row) := by
  obtain ⟨reached, rest, rfl, -⟩ := h.exists_cons
  cases piece with
  | one p => exact (h.shift p false).congr (by simp)
  | run p =>
    have hs := h.spread p false
    rw [Bool.or_false] at hs
    exact hs.congr (by simp)

end

-- ---------------------------------------------------------------------------
-- Whole patterns
-- ---------------------------------------------------------------------------

theorem Marks.reach {before : List Piece} {text : List Char} {row : List Bool}
    (h : Marks (Describes before) text row) (pieces : List Piece) :
    (Wildcard.reach text pieces row).getLastD false = true ↔
      Describes (before ++ pieces) text := by
  induction pieces generalizing before row with
  | nil =>
    rw [List.append_nil]
    exact h.getLastD false
  | cons piece pieces ih =>
    rw [Wildcard.reach]
    split
    · rw [ih ((h.advance piece).congr fun _ => describes_concat.symm), List.append_assoc,
        List.singleton_append]
    · -- No front is described by what was read, so no more pieces can help.
      rename_i hn
      rw [List.contains_iff_mem] at hn
      refine iff_of_false ?_ fun hd => ?_
      · rw [h.getLastD false]
        exact h.not_of_notMem hn (List.append_nil text).symm
      · obtain ⟨front, rest, hf, -, ht⟩ := describes_append.mp hd
        exact h.not_of_notMem hn ht hf

/-- Matching finds out whether the text falls into parts for the pieces. -/
theorem covers_iff {pieces : List Piece} {text : List Char} :
    covers pieces text = true ↔ Describes pieces text :=
  (marks_start text).reach pieces

end Folio.Text.Wildcard
