import Folio.Proofs.Template.Script
import Folio.Proofs.Text.Separator
import Folio.Proofs.Text.Trimmed

/-!
# Where tags are found

A pass looks for its marks at every place of a text. In what a well-formed template is
written as, a mark begins only where a tag of its own kind begins: all marks begin with
two braces, and the character behind these tells the tags apart.
-/

namespace Folio.Template

-- ---------------------------------------------------------------------------
-- Marks
-- ---------------------------------------------------------------------------

/-- The mark begins nowhere in the text, whatever follows. -/
def Absent (mark : List Char) : List Char → Prop
  | [] => True
  | c :: text => (∀ rest, afterMark? mark (c :: text ++ rest) = none) ∧ Absent mark text

theorem Absent.append {mark text more : List Char} (h : Absent mark text)
    (hm : Absent mark more) : Absent mark (text ++ more) := by
  induction text with
  | nil => exact hm
  | cons c text ih =>
    refine ⟨fun rest => ?_, ih h.2⟩
    have hc := h.1 (more ++ rest)
    rwa [← List.append_assoc] at hc

theorem afterMark?_of_ne {m c : Char} (h : m ≠ c) (mark text : List Char) :
    afterMark? (m :: mark) (c :: text) = none := by
  rw [afterMark?, if_neg h]

theorem afterMark?_append (mark rest : List Char) : afterMark? mark (mark ++ rest) = some rest :=
  afterMark?_eq_some.mpr rfl

theorem absent_of_notMem {m : Char} {mark text : List Char} (h : m ∉ text) :
    Absent (m :: mark) text := by
  induction text with
  | nil => trivial
  | cons c text ih =>
    rw [List.mem_cons, not_or] at h
    exact ⟨fun rest => afterMark?_of_ne h.1 _ _, ih h.2⟩

/-- A mark of two braces can begin in a text of two braces only with the text. -/
theorem absent_of_braces {c : Char} {mark text : List Char} (hb : '{' ∉ c :: text)
    (h : ∀ rest, afterMark? mark (c :: text ++ rest) = none) :
    Absent ('{' :: '{' :: mark) ('{' :: '{' :: c :: text) := by
  rw [List.mem_cons, not_or] at hb
  refine ⟨fun rest => h rest, fun rest => ?_, fun rest => ?_, absent_of_notMem hb.2⟩
  · exact afterMark?_of_ne hb.1 _ _
  · exact afterMark?_of_ne hb.1 _ _

theorem absent_of_ne {m c : Char} {text : List Char} (hm : m ≠ c) (hb : '{' ∉ c :: text)
    (mark : List Char) : Absent ('{' :: '{' :: m :: mark) ('{' :: '{' :: c :: text) :=
  absent_of_braces hb fun _ => afterMark?_of_ne hm _ _

namespace IsPath

variable {path : List Char}

theorem exists_cons (h : IsPath path) :
    ∃ c rest, path = c :: rest ∧ c ∉ marks ∧ '{' ∉ c :: rest := by
  obtain ⟨c, rest, rfl⟩ := List.exists_cons_of_ne_nil h.ne_nil
  refine ⟨c, rest, rfl, h.notMem c List.mem_cons_self, fun hm => ?_⟩
  exact h.notMem _ hm (by decide)

theorem closing_notMem (h : IsPath path) : '}' ∉ path :=
  fun hm => h.notMem _ hm (by decide)

theorem isTrimmed (h : IsPath path) : Text.IsTrimmed path where
  head c hc := h.isBlank c (List.mem_of_mem_head? hc)
  last c hc := h.isBlank c (List.mem_of_mem_getLast? hc)

theorem trim (h : IsPath path) : Text.trim path = path :=
  h.isTrimmed.trim_eq

/-- Paths on both sides keep what is between them. -/
theorem trim_between {other : List Char} (h : IsPath path) (ho : IsPath other)
    (middle : List Char) : Text.trim (path ++ (middle ++ other)) = path ++ (middle ++ other) :=
  (h.isTrimmed.between ho.isTrimmed h.ne_nil ho.ne_nil middle).trim_eq

theorem trim_append_blanks (h : IsPath path) {blanks : List Char}
    (hb : ∀ c ∈ blanks, Text.isBlank c = true) : Text.trim (path ++ blanks) = path :=
  h.isTrimmed.trim_padded (List.forall_mem_nil _) hb

theorem trim_space (h : IsPath path) : Text.trim (' ' :: path) = path := by
  have hspace : ∀ c ∈ [' '], Text.isBlank c = true := by decide
  have htrim := h.isTrimmed.trim_padded hspace (List.forall_mem_nil _)
  rwa [List.append_nil] at htrim

end IsPath

-- ---------------------------------------------------------------------------
-- Tags
-- ---------------------------------------------------------------------------

namespace Tag

variable {tag : Tag}

theorem match?_eq_none {text : List Char} (h : afterMark? tag.opening text = none) :
    tag.match? text = none := by
  simp [match?, h]

/-- A tag is found where it stands, if it admits its run. -/
theorem match?_source {more run : List Char} (hc : tag.closing = '}' :: more) (hr : '}' ∉ run)
    (rest : List Char) :
    tag.match? (tag.source run ++ rest) = if tag.admits run then some (run, rest) else none := by
  have hafter : afterMark? tag.closing ('}' :: (more ++ rest)) = some rest := by
    rw [hc]
    exact afterMark?_append ('}' :: more) rest
  have htext : tag.source run ++ rest = tag.opening ++ (run ++ '}' :: (more ++ rest)) := by
    simp [source, hc]
  unfold match?
  rw [htext, afterMark?_append]
  simp only [Option.bind_eq_bind, Option.bind_some, Text.dropWhile_ne hr, hafter,
    Text.takeWhile_ne hr]

theorem replace_of_match {replacement : List Char → List Char} {text run rest : List Char}
    (h : tag.match? text = some (run, rest)) :
    tag.replace replacement text = replacement run ++ tag.replace replacement rest := by
  cases text with
  | nil => exact absurd (length_lt_of_match? h) (Nat.not_lt_zero _)
  | cons c others =>
    rw [replace]
    split
    · case h_1 run' rest' hm =>
      rw [h, Option.some.injEq, Prod.mk.injEq] at hm
      rw [hm.1, hm.2]
    · case h_2 hm =>
      rw [h] at hm
      cases hm

theorem replace_cons_of_match?_eq_none (replacement : List Char → List Char) {c : Char}
    {text : List Char} (h : tag.match? (c :: text) = none) :
    tag.replace replacement (c :: text) = c :: tag.replace replacement text := by
  rw [replace]
  split
  · case h_1 hm =>
    rw [h] at hm
    cases hm
  · rfl

theorem replace_absent (replacement : List Char → List Char) {text : List Char}
    (h : Absent tag.opening text) (rest : List Char) :
    tag.replace replacement (text ++ rest) = text ++ tag.replace replacement rest := by
  induction text with
  | nil => rfl
  | cons c text ih =>
    have hn : tag.match? (c :: (text ++ rest)) = none := match?_eq_none (h.1 rest)
    rw [List.cons_append, replace_cons_of_match?_eq_none _ hn, ih h.2, List.cons_append]

@[simp] theorem replace_nil (replacement : List Char → List Char) :
    tag.replace replacement [] = [] := by
  rw [replace]

end Tag

-- ---------------------------------------------------------------------------
-- Blocks
-- ---------------------------------------------------------------------------

namespace BlockKind

variable {kind : BlockKind} {text run rest body after : List Char} {depth : Nat}

theorem close?_of_match (h : kind.opening.match? text = some (run, rest)) (depth : Nat) :
    kind.close? depth text = (kind.close? (depth + 1) rest).map fun (body, after) =>
      (kind.opening.source run ++ body, after) := by
  cases text with
  | nil => exact absurd (Tag.length_lt_of_match? h) (Nat.not_lt_zero _)
  | cons c others =>
    rw [close?]
    split
    · case h_1 run' rest' hm =>
      rw [h, Option.some.injEq, Prod.mk.injEq] at hm
      rw [hm.1, hm.2]
    · case h_2 hm =>
      rw [h] at hm
      cases hm

theorem close?_of_closing (hn : kind.opening.match? text = none)
    (hc : afterMark? kind.closing text = some rest) (depth : Nat) :
    kind.close? depth text =
      if depth ≤ 1 then some ([], rest)
      else (kind.close? (depth - 1) rest).map fun (body, after) =>
        (kind.closing ++ body, after) := by
  cases text with
  | nil =>
    have hne := kind.closing_ne_nil
    rw [afterMark?_eq_some, List.nil_eq_append_iff] at hc
    exact absurd hc.1 hne
  | cons c others =>
    rw [close?]
    split
    · case h_1 hm =>
      rw [hn] at hm
      cases hm
    · split
      · case h_1 rest' hr =>
        rw [hc, Option.some.injEq] at hr
        rw [hr]
      · case h_2 hr =>
        rw [hc] at hr
        cases hr

theorem close?_absent (ho : Absent kind.opening.opening text) (hc : Absent kind.closing text)
    (depth : Nat) (rest : List Char) :
    kind.close? depth (text ++ rest) =
      (kind.close? depth rest).map fun (body, after) => (text ++ body, after) := by
  induction text with
  | nil => simp
  | cons c text ih =>
    have hn := Tag.match?_eq_none (ho.1 rest)
    have hm := hc.1 rest
    rw [List.cons_append] at hn hm ⊢
    rw [close?]
    split
    · case h_1 hf =>
      rw [hn] at hf
      cases hf
    · split
      · case h_1 hf =>
        rw [hm] at hf
        cases hf
      · rw [ih ho.2 hc.2, Option.map_map]
        rfl

theorem cut_eq (kind : BlockKind) (c : Char) (others : List Char) :
    kind.cut (c :: others) = match kind.opening.match? (c :: others) with
      | some (run, rest) => match kind.close? 1 rest with
        | some (body, after) => .block run body :: kind.cut after
        | none => prependGap (kind.opening.source run) (kind.cut rest)
      | none => prependGap [c] (kind.cut others) := by
  rw [cut]
  split
  · rename_i h
    rw [h]
    split <;> rename_i hc <;> simp only [hc]
  · rename_i h
    rw [h]

theorem cut_of_match (h : kind.opening.match? text = some (run, rest))
    (hc : kind.close? 1 rest = some (body, after)) :
    kind.cut text = .block run body :: kind.cut after := by
  cases text with
  | nil => exact absurd (Tag.length_lt_of_match? h) (Nat.not_lt_zero _)
  | cons c others => simp only [cut_eq, h, hc]

theorem cut_of_unclosed (h : kind.opening.match? text = some (run, rest))
    (hc : kind.close? 1 rest = none) :
    kind.cut text = prependGap (kind.opening.source run) (kind.cut rest) := by
  cases text with
  | nil => exact absurd (Tag.length_lt_of_match? h) (Nat.not_lt_zero _)
  | cons c others => simp only [cut_eq, h, hc]

theorem cut_of_match?_eq_none {c : Char} (h : kind.opening.match? (c :: text) = none) :
    kind.cut (c :: text) = prependGap [c] (kind.cut text) := by
  rw [cut_eq, h]

def renderPiece (render : List Char → List Char → Option (List Char)) :
    Piece → Option (List Char)
  | .gap gap => some gap
  | .block run body => render (Text.trim run) body

variable (render : List Char → List Char → Option (List Char))

theorem replace_eq (text : List Char) :
    kind.replace render text =
      ((kind.cut text).mapM (renderPiece render)).map List.flatten := by
  have hbind : kind.replace render text =
      ((kind.cut text).mapM (renderPiece render)).bind fun parts => some parts.flatten := rfl
  rw [hbind]
  cases (kind.cut text).mapM (renderPiece render) <;> rfl

theorem flatten_prependGap (gap : List Char) (pieces : List Piece) :
    ((prependGap gap pieces).mapM (renderPiece render)).map List.flatten =
      ((pieces.mapM (renderPiece render)).map List.flatten).map (gap ++ ·) := by
  unfold prependGap
  split
  · rename_i first rest
    simp only [List.mapM_cons, renderPiece, Option.pure_def, Option.bind_eq_bind, Option.bind_some]
    cases rest.mapM (renderPiece render) <;> simp
  · rename_i rest hne
    simp only [List.mapM_cons, renderPiece, Option.pure_def, Option.bind_eq_bind, Option.bind_some]
    cases pieces.mapM (renderPiece render) <;> simp

@[simp] theorem replace_nil : kind.replace render [] = some [] := by
  rw [replace_eq, cut]
  rfl

theorem replace_absent (h : Absent kind.opening.opening text) (rest : List Char) :
    kind.replace render (text ++ rest) = (kind.replace render rest).map (text ++ ·) := by
  induction text with
  | nil => simp
  | cons c text ih =>
    have hn := Tag.match?_eq_none (h.1 rest)
    rw [List.cons_append] at hn
    rw [List.cons_append, replace_eq, cut_of_match?_eq_none hn, flatten_prependGap, ← replace_eq, ih h.2,
      Option.map_map]
    rfl

theorem replace_of_match (h : kind.opening.match? text = some (run, rest))
    (hc : kind.close? 1 rest = some (body, after)) {rendered : List Char}
    (hr : render (Text.trim run) body = some rendered) :
    kind.replace render text = (kind.replace render after).map (rendered ++ ·) := by
  rw [replace_eq, cut_of_match h hc, replace_eq]
  simp only [List.mapM_cons, renderPiece, hr, Option.pure_def, Option.bind_eq_bind,
    Option.bind_some]
  cases (kind.cut after).mapM (renderPiece render) <;> simp

end BlockKind

-- ---------------------------------------------------------------------------
-- The tags of templates
-- ---------------------------------------------------------------------------

theorem plainTag_source_eq (path : List Char) :
    plainTag.source path = '{' :: '{' :: (path ++ ['}', '}']) := rfl

theorem isPlainChar_of_notMem {c : Char} (h : c ∉ marks) : isPlainChar c = true := by
  simp only [marks, List.mem_cons, not_or] at h
  simp [isPlainChar, h.2.2.1, h.2.2.2.1]

theorem notMem_marks_of_isBlank {c : Char} (h : Text.isBlank c = true) : c ∉ marks := by
  have hmarks : ∀ m ∈ marks, Text.isBlank m = false := by decide
  intro hm
  rw [hmarks c hm] at h
  cases h

/-- A call is cut at no character of a path. -/
theorem IsPath.splitCall?_go {path : List Char} (h : IsPath path) (before : List Char)
    (found : Option (List Char × List Char)) (rest : List Char) :
    splitCall?.go before (path ++ rest) found =
      splitCall?.go (path.reverse ++ before) rest found := by
  have hb := h.isBlank
  have hm := h.notMem
  clear h
  induction path generalizing before with
  | nil => rfl
  | cons c path ih =>
    obtain ⟨hc, hb⟩ := List.forall_mem_cons.mp hb
    obtain ⟨hcm, hm⟩ := List.forall_mem_cons.mp hm
    simp [splitCall?.go, hc, isPlainChar_of_notMem hcm, ih _ hb hm]

/-- The last white space in front of the argument is where a call is cut. -/
theorem IsPath.splitCall?_go_blanks {path blanks before : List Char} (h : IsPath path)
    (hne : blanks ≠ []) (hb : ∀ c ∈ blanks, Text.isBlank c = true) (hbefore : before ≠ [])
    (found : Option (List Char × List Char)) :
    splitCall?.go before (blanks ++ path) found =
      some (before.reverse ++ blanks.dropLast, path) := by
  induction blanks generalizing before found with
  | nil => exact absurd rfl hne
  | cons c blanks ih =>
    obtain ⟨hc, hb⟩ := List.forall_mem_cons.mp hb
    have hplain := isPlainChar_of_notMem (notMem_marks_of_isBlank hc)
    rw [List.cons_append, splitCall?.go, if_pos hplain]
    cases blanks with
    | nil =>
      have hlast := h.splitCall?_go (c :: before) (some (before.reverse, path)) []
      rw [List.append_nil] at hlast
      simpa [hc, hbefore, h.ne_nil, splitCall?.go] using hlast
    | cons d blanks =>
      rw [ih (List.cons_ne_nil d blanks) hb (List.cons_ne_nil c before)]
      simp

namespace IsPath

variable {path : List Char}

theorem match?_block (h : IsPath path) (b : Block) (rest : List Char) :
    b.kind.opening.match? (b.kind.opening.source (' ' :: path) ++ rest) =
      some (' ' :: path, rest) := by
  obtain ⟨c, others, rfl, _, _⟩ := h.exists_cons
  have hr : '}' ∉ ' ' :: c :: others := by
    rw [List.mem_cons, not_or]
    exact ⟨by decide, h.closing_notMem⟩
  cases b <;> exact Tag.match?_source rfl hr rest

theorem match?_raw (h : IsPath path) (rest : List Char) :
    rawTag.match? (rawTag.source path ++ rest) = some (path, rest) := by
  rw [Tag.match?_source rfl h.closing_notMem]
  simp [rawTag, h.ne_nil]

theorem match?_plain (h : IsPath path) (rest : List Char) :
    plainTag.match? (plainTag.source path ++ rest) = some (path, rest) := by
  have hplain : ∀ c ∈ path, isPlainChar c = true := fun c hc =>
    isPlainChar_of_notMem (h.notMem c hc)
  have ha : plainTag.admits path = true := by
    simpa [plainTag, h.ne_nil] using hplain
  rw [Tag.match?_source rfl h.closing_notMem, ha, if_pos rfl]

theorem absent_inside (h : IsPath path) :
    Absent callTag.opening ('{' :: (path ++ ['}', '}'])) := by
  obtain ⟨c, others, rfl, _, hb⟩ := h.exists_cons
  refine ⟨fun rest => ?_, absent_of_notMem (by simpa using hb)⟩
  rw [List.mem_cons, not_or] at hb
  exact afterMark?_of_ne hb.1 _ _

/-- A run without blanks is no helper call. -/
theorem match?_call (h : IsPath path) (rest : List Char) :
    callTag.match? (plainTag.source path ++ rest) = none := by
  have hgo := h.splitCall?_go [] none []
  rw [List.append_nil] at hgo
  have ha : callTag.admits path = false := by
    simp [callTag, splitCall?, hgo, splitCall?.go]
  have hm : callTag.match? (callTag.source path ++ rest) =
      if callTag.admits path then some (path, rest) else none :=
    Tag.match?_source rfl h.closing_notMem rest
  rw [ha] at hm
  exact hm

/-- The marks of blocks and of raw tags do not begin in a plain tag. -/
theorem absent_plain (h : IsPath path) {m : Char} (hm : m ∈ marks) (mark : List Char) :
    Absent ('{' :: '{' :: m :: mark) (plainTag.source path) := by
  obtain ⟨c, others, rfl, hc, hb⟩ := h.exists_cons
  have htext : plainTag.source (c :: others) = '{' :: '{' :: c :: (others ++ ['}', '}']) := rfl
  rw [htext]
  refine absent_of_ne ?_ (by simpa using hb) mark
  rintro rfl
  exact hc hm

theorem absent_raw (h : IsPath path) {m : Char} (hm : m ∈ ['#', '/']) (mark : List Char) :
    Absent ('{' :: '{' :: m :: mark) (rawTag.source path) := by
  obtain ⟨c, others, rfl, hc, hb⟩ := h.exists_cons
  have htext : rawTag.source (c :: others) =
      '{' :: '{' :: '{' :: c :: (others ++ ['}', '}', '}']) := rfl
  have hne : m ≠ '{' := by
    rintro rfl
    exact absurd hm (by decide)
  have hmark : m ∈ marks := List.mem_cons_of_mem _ (List.mem_cons_of_mem _ hm)
  rw [htext]
  refine ⟨fun rest => afterMark?_of_ne hne _ _, absent_of_ne ?_ (by simpa using hb) mark⟩
  rintro rfl
  exact hc hmark

end IsPath

namespace Call.WellFormed

variable {call : Call}

theorem notMem_run (h : call.WellFormed) : ∀ c ∈ call.run, c ∉ marks := by
  simp only [run, List.forall_mem_append]
  exact ⟨h.helper.notMem, fun c hc => notMem_marks_of_isBlank (h.blanks c hc), h.argument.notMem⟩

theorem closing_notMem (h : call.WellFormed) : '}' ∉ call.run :=
  fun hm => h.notMem_run _ hm (by decide)

theorem trim_run (h : call.WellFormed) : Text.trim call.run = call.run :=
  h.helper.trim_between h.argument call.blanks

theorem contains_space (h : call.WellFormed) :
    call.run.contains ' ' = decide (' ' ∈ call.blanks) := by
  have hspace {path : List Char} (hp : IsPath path) : ' ' ∉ path :=
    fun hm => absurd (hp.isBlank ' ' hm) (by decide)
  simp [run, hspace h.helper, hspace h.argument]

theorem splitCall?_run (h : call.WellFormed) :
    splitCall? call.run = some (call.helper ++ call.blanks.dropLast, call.argument) := by
  have hreverse : call.helper.reverse ++ [] ≠ [] := by simpa using h.helper.ne_nil
  rw [splitCall?, run, h.helper.splitCall?_go,
    h.argument.splitCall?_go_blanks h.blanks_ne_nil h.blanks hreverse]
  simp

theorem trim_helper (h : call.WellFormed) :
    Text.trim (call.helper ++ call.blanks.dropLast) = call.helper :=
  h.helper.trim_append_blanks fun c hc => h.blanks c (List.dropLast_subset _ hc)

theorem match?_call (h : call.WellFormed) (rest : List Char) :
    callTag.match? (call.source ++ rest) = some (call.run, rest) := by
  have ha : callTag.admits call.run = true := by
    simp [callTag, h.splitCall?_run]
  rw [source, Tag.match?_source rfl h.closing_notMem, ha, if_pos rfl]

/-- A call is a plain tag as well. -/
theorem match?_plain (h : call.WellFormed) (rest : List Char) :
    plainTag.match? (call.source ++ rest) = some (call.run, rest) := by
  have hne : call.run ≠ [] := by simp [run, h.helper.ne_nil]
  have ha : plainTag.admits call.run = true := by
    simpa [plainTag, hne] using fun c hc => isPlainChar_of_notMem (h.notMem_run c hc)
  have hm : plainTag.match? (plainTag.source call.run ++ rest) =
      if plainTag.admits call.run then some (call.run, rest) else none :=
    Tag.match?_source rfl h.closing_notMem rest
  rw [ha, if_pos rfl] at hm
  exact hm

theorem absent (h : call.WellFormed) {m : Char} (hm : m ∈ marks) (mark : List Char) :
    Absent ('{' :: '{' :: m :: mark) call.source := by
  obtain ⟨c, others, hr, hc, _⟩ := h.helper.exists_cons
  have hb : '{' ∉ call.run := fun hm => h.notMem_run _ hm (by decide)
  have hrun : call.run = c :: (others ++ (call.blanks ++ call.argument)) := by
    rw [run, hr, List.cons_append]
  rw [hrun] at hb
  have htext : call.source =
      '{' :: '{' :: c :: (others ++ (call.blanks ++ call.argument) ++ ['}', '}']) := by
    rw [source, hrun]
    rfl
  rw [htext]
  refine absent_of_ne ?_ (by simpa using hb) mark
  rintro rfl
  exact hc hm

end Call.WellFormed

/-- The marks of blocks do not begin in what is no block. -/
theorem Leaf.WellFormed.absent {leaf : Leaf} (h : leaf.WellFormed) {m : Char}
    (hm : m ∈ ['#', '/']) (mark : List Char) : Absent ('{' :: '{' :: m :: mark) leaf.source := by
  have hmark : m ∈ marks := List.mem_cons_of_mem _ (List.mem_cons_of_mem _ hm)
  cases leaf with
  | text => exact absent_of_notMem h
  | plain => exact IsPath.absent_plain h hmark mark
  | raw => exact IsPath.absent_raw h hm mark
  | invoke => exact Call.WellFormed.absent h hmark mark

theorem absent_sources {leaves : List Leaf} (h : ∀ leaf ∈ leaves, leaf.WellFormed) {m : Char}
    (hm : m ∈ ['#', '/']) (mark : List Char) :
    Absent ('{' :: '{' :: m :: mark) (sources leaves) := by
  induction leaves with
  | nil => trivial
  | cons leaf leaves ih =>
    obtain ⟨hl, hr⟩ := List.forall_mem_cons.mp h
    exact (hl.absent hm mark).append (ih hr)

namespace Block

variable {b other : Block} {path : List Char}

def keyword : Block → List Char
  | .each => ['e', 'a', 'c', 'h']
  | .cond => ['i', 'f']

theorem opening_eq (b : Block) : b.kind.opening.opening = '{' :: '{' :: '#' :: b.keyword := by
  cases b <;> decide

theorem closing_eq (b : Block) :
    b.kind.closing = '{' :: '{' :: '/' :: (b.keyword ++ ['}', '}']) := by
  cases b <;> decide

theorem source_eq (b : Block) (path : List Char) :
    b.kind.opening.source (' ' :: path) =
      '{' :: '{' :: '#' :: (b.keyword ++ ' ' :: (path ++ ['}', '}'])) := by
  have hc : b.kind.opening.closing = ['}', '}'] := by
    cases b <;> rfl
  simp [Tag.source, opening_eq, hc]

theorem brace_notMem_keyword (b : Block) : '{' ∉ b.keyword := by
  cases b <;> decide

theorem match?_closing (b : Block) (rest : List Char) :
    b.kind.opening.match? (b.kind.closing ++ rest) = none := by
  apply Tag.match?_eq_none
  rw [opening_eq, closing_eq]
  rfl

theorem afterMark?_keyword (hne : b ≠ other) (mark text : List Char) :
    afterMark? (b.keyword ++ mark) (other.keyword ++ text) = none := by
  cases b <;> cases other
  case each.each | cond.cond => exact absurd rfl hne
  all_goals rfl

/-- The marks of one block do not begin in the opening tags of the other one. -/
theorem absent_opening (hne : b ≠ other) (h : IsPath path) :
    Absent b.kind.opening.opening (other.kind.opening.source (' ' :: path)) ∧
      Absent b.kind.closing (other.kind.opening.source (' ' :: path)) := by
  obtain ⟨_, _, _, _, hb⟩ := h.exists_cons
  have hbrace : '{' ∉ '#' :: (other.keyword ++ ' ' :: (path ++ ['}', '}'])) := by
    simp_all [other.brace_notMem_keyword]
  rw [source_eq, opening_eq, closing_eq]
  refine ⟨absent_of_braces hbrace fun rest => ?_, absent_of_braces hbrace fun rest => ?_⟩
  · have hk := afterMark?_keyword hne [] (' ' :: (path ++ ['}', '}']) ++ rest)
    simpa [afterMark?] using hk
  · exact afterMark?_of_ne (by decide) _ _

theorem absent_closing (hne : b ≠ other) :
    Absent b.kind.opening.opening other.kind.closing ∧
      Absent b.kind.closing other.kind.closing := by
  have hbrace : '{' ∉ '/' :: (other.keyword ++ ['}', '}']) := by
    simp [other.brace_notMem_keyword]
  rw [opening_eq, closing_eq, closing_eq]
  refine ⟨absent_of_braces hbrace fun rest => ?_, absent_of_braces hbrace fun rest => ?_⟩
  · exact afterMark?_of_ne (by decide) _ _
  · have hk := afterMark?_keyword hne ['}', '}'] (['}', '}'] ++ rest)
    simpa [afterMark?] using hk

end Block

namespace Script

/-- A template closes all blocks that it opens. -/
theorem WellFormed.close?_source {script : Script} (h : script.WellFormed) (b : Block)
    {depth : Nat} (hd : 1 ≤ depth) (rest : List Char) :
    b.kind.close? depth (script.source ++ rest) =
      (b.kind.close? depth rest).map fun (body, after) => (script.source ++ body, after) := by
  induction script generalizing depth rest with
  | flat leaves =>
    apply BlockKind.close?_absent
    · exact b.opening_eq ▸ absent_sources h (by decide) _
    · exact b.closing_eq ▸ absent_sources h (by decide) _
  | block other path body ih =>
    obtain ⟨hp, hb⟩ := h
    rw [source, List.append_assoc, List.append_assoc]
    by_cases hne : b = other
    · subst hne
      -- The block raises the depth by one, and its own mark lowers it again.
      rw [BlockKind.close?_of_match (hp.match?_block b _), ih hb (Nat.le_add_left 1 depth),
        BlockKind.close?_of_closing (b.match?_closing rest) (afterMark?_append _ _),
        if_neg (by omega), Nat.add_sub_cancel]
      simp [Option.map_map, Function.comp_def]
    · obtain ⟨ho, ho'⟩ := Block.absent_opening hne hp
      obtain ⟨hc, hc'⟩ := Block.absent_closing hne
      rw [BlockKind.close?_absent ho ho', ih hb hd, BlockKind.close?_absent hc hc']
      simp [Option.map_map, Function.comp_def]
  | append first second ih ih' =>
    rw [source, List.append_assoc, ih h.1 hd, ih' h.2 hd, Option.map_map]
    simp [Function.comp_def]

end Script

end Folio.Template
