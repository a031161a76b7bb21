import Folio.Proofs.Template.Calls
import Folio.Proofs.Template.Passes

/-!
# When conditionals come to rest

The passes over the conditionals of a text go on while something changes, but no longer than
the text holds the mark of a conditional with a space behind it. What comes out before the
passes are used up is left as it is by one more pass, unless it holds conditionals with another
white space behind the mark only: these are resolved next to one with a space, and alone stay.
-/

namespace Folio.Template

-- ---------------------------------------------------------------------------
-- Blocks and the text that they are cut from
-- ---------------------------------------------------------------------------

namespace BlockKind

variable {kind : BlockKind} {text run rest body after : List Char}

/-- A block as it stands in a text. -/
def source (kind : BlockKind) (run body : List Char) : List Char :=
  kind.opening.source run ++ (body ++ kind.closing)

theorem eq_source_append (hm : kind.opening.match? text = some (run, rest))
    (hc : kind.close? 1 rest = some (body, after)) :
    text = kind.source run body ++ after := by
  rw [Tag.eq_source_append hm, eq_append_of_close? hc, source]
  simp only [List.append_assoc]

/-- A block that a text is cut into begins somewhere in it. -/
theorem exists_match_of_mem_cut (h : .block run body ∈ kind.cut text) :
    ∃ before behind rest, text = before ++ behind ∧
      kind.opening.match? behind = some (run, rest) := by
  fun_induction kind.cut text with
  | case1 => cases h
  | case2 c others other rest hm inner after hc ih =>
    rcases List.mem_cons.mp h with he | h
    · cases he
      exact ⟨[], c :: others, rest, rfl, hm⟩
    · obtain ⟨before, behind, more, rfl, hb⟩ := ih h
      refine ⟨kind.source other inner ++ before, behind, more, ?_, hb⟩
      rw [eq_source_append hm hc, List.append_assoc]
  | case3 c others other rest hm hc ih =>
    obtain ⟨before, behind, more, rfl, hb⟩ := ih (mem_prependGap.mp h)
    refine ⟨kind.opening.source other ++ before, behind, more, ?_, hb⟩
    rw [Tag.eq_source_append hm, List.append_assoc]
  | case4 c others hm ih =>
    obtain ⟨before, behind, more, rfl, hb⟩ := ih (mem_prependGap.mp h)
    exact ⟨c :: before, behind, more, rfl, hb⟩

/-- A text whose blocks are replaced by themselves is unchanged. -/
theorem replace_eq_self {render : List Char → List Char → Option (List Char)}
    (h : ∀ run body, .block run body ∈ kind.cut text →
      render (Text.trim run) body = some (kind.source run body)) :
    kind.replace render text = some text := by
  rw [replace_eq]
  fun_induction kind.cut text with
  | case1 => rfl
  | case2 c others run rest hm body after hc ih =>
    have hfirst := h run body List.mem_cons_self
    have hrest := ih fun run body hb => h run body (List.mem_cons_of_mem _ hb)
    obtain ⟨parts, hp, hf⟩ := Option.map_eq_some_iff.mp hrest
    rw [eq_source_append hm hc]
    simp [renderPiece, hfirst, hp, hf]
  | case3 c others run rest hm hc ih =>
    rw [flatten_prependGap, ih fun run body hb => h run body (mem_prependGap.mpr hb),
      Tag.eq_source_append hm]
    rfl
  | case4 c others hm ih =>
    rw [flatten_prependGap, ih fun run body hb => h run body (mem_prependGap.mpr hb)]
    rfl

end BlockKind

/-- Without the mark that conditionals are looked for by, none of them goes on with a space. -/
theorem head?_ne_space {text run body : List Char} (hm : mentionsIf text = false)
    (h : .block run body ∈ ifBlock.cut text) : run.head? ≠ some ' ' := by
  obtain ⟨before, behind, rest, rfl, hb⟩ := BlockKind.exists_match_of_mem_cut h
  have hbehind := mentionsIf_of_append before hm
  intro hs
  obtain ⟨more, rfl⟩ := List.head?_eq_some_iff.mp hs
  have htext : behind = ifMark ++ (more ++ ['}', '}'] ++ rest) := by
    rw [Tag.eq_source_append hb]
    rfl
  rw [htext] at hbehind
  cases hbehind

-- ---------------------------------------------------------------------------
-- Counted passes
-- ---------------------------------------------------------------------------

/-- What resolving conditionals comes to, and how many passes changed the text. -/
def countIfs (render : Renderer) (scope : Scope) : Nat → List Char → Option (Nat × List Char)
  | 0, text => some (0, text)
  | passes + 1, text =>
    if mentionsIf text then do
      let next ← ifBlock.replace (renderIf render scope) text
      if next = text then some (0, text)
      else (countIfs render scope passes next).map fun (changes, out) => (changes + 1, out)
    else some (0, text)

/-- One more pass over the conditionals leaves the text as it is. -/
def IsStable (render : Renderer) (scope : Scope) (text : List Char) : Prop :=
  ifBlock.replace (renderIf render scope) text = some text

instance (render : Renderer) (scope : Scope) (text : List Char) :
    Decidable (IsStable render scope text) :=
  inferInstanceAs (Decidable (_ = some text))

section
variable {render : Renderer} {scope : Scope} {passes changes : Nat} {text out : List Char}

theorem resolveIfs_eq_countIfs (render : Renderer) (scope : Scope) (passes : Nat)
    (text : List Char) :
    resolveIfs render scope passes text =
      (countIfs render scope passes text).map Prod.snd := by
  induction passes generalizing text with
  | zero => rfl
  | succ passes ih =>
    rw [resolveIfs, countIfs]
    split
    · cases ifBlock.replace (renderIf render scope) text with
      | none => rfl
      | some next =>
        simp only [Option.bind_eq_bind, Option.bind_some]
        split
        · rfl
        · rw [ih, Option.map_map]
          rfl
    · rfl

/-- The passes end early for one of two reasons. -/
theorem stable_of_countIfs (h : countIfs render scope passes text = some (changes, out))
    (hc : changes < passes) : mentionsIf out = false ∨ IsStable render scope out := by
  -- Induction on the passes that are left; each pass that changes the text uses up one.
  induction passes generalizing text changes with
  | zero => exact absurd hc (Nat.not_lt_zero _)
  | succ passes ih =>
    rw [countIfs] at h
    split at h
    · simp only [Option.bind_eq_bind, Option.bind_eq_some_iff] at h
      obtain ⟨next, hn, h⟩ := h
      split at h
      · rename_i he
        cases h
        exact .inr (he ▸ hn)
      · obtain ⟨⟨others, _⟩, hr, he⟩ := Option.map_eq_some_iff.mp h
        cases he
        exact ih hr (Nat.lt_of_succ_lt_succ hc)
    · rename_i hm
      cases h
      exact .inl (Bool.eq_false_iff.mpr hm)

/-- When the passes over the conditionals of a text end before they are used up, one more pass
leaves the text as it is. The exception is a text without the mark that conditionals are looked
for by, and in it a conditional with a white space other than a space in its tag, that does not
give itself again. -/
theorem stable_unless_hidden (h : countIfs render scope maxPasses text = some (changes, out))
    (hc : changes < maxPasses) :
    resolveIfs render scope maxPasses text = some out ∧
      (IsStable render scope out ∨
        mentionsIf out = false ∧ ∃ run body, .block run body ∈ ifBlock.cut out ∧
          run.head? ≠ some ' ' ∧
          renderIf render scope (Text.trim run) body ≠ some (ifBlock.source run body)) := by
  refine ⟨by rw [resolveIfs_eq_countIfs, h, Option.map_some], ?_⟩
  rcases stable_of_countIfs h hc with hm | hs
  · by_cases hs : IsStable render scope out
    · exact .inl hs
    · have hblock : ¬ ∀ run body, .block run body ∈ ifBlock.cut out →
          renderIf render scope (Text.trim run) body = some (ifBlock.source run body) :=
        fun h => hs (BlockKind.replace_eq_self h)
      simp only [not_forall] at hblock
      obtain ⟨run, body, hb, hne⟩ := hblock
      exact .inr ⟨hm, run, body, hb, head?_ne_space hm hb, hne⟩
  · exact .inl hs

end

/-- A scope in which `x` holds. -/
def holding : Scope :=
  .root (.object [("x", .bool true)])

/-- A conditional is resolved, and a tag without a partner is left. -/
theorem unclosed_is_stable :
    let text := "\x7b\x7b#if x\x7d\x7dA\x7b\x7b/if\x7d\x7d\x7b\x7b#if y\x7d\x7d".toList
    let out := "A\x7b\x7b#if y\x7d\x7d".toList
    countIfs (renderWithin 2) holding maxPasses text = some (1, out) ∧ 1 < maxPasses ∧
      resolveIfs (renderWithin 2) holding maxPasses text = some out ∧
      IsStable (renderWithin 2) holding out := by
  intro text out
  have hcount : countIfs (renderWithin 2) holding maxPasses text = some (1, out) := by
    decide +kernel
  have hfew : 1 < maxPasses := by decide
  obtain ⟨hresolved, hstable | ⟨hm, -⟩⟩ := stable_unless_hidden hcount hfew
  · exact ⟨hcount, hfew, hresolved, hstable⟩
  · exact absurd hm (by decide)

/-- A text can be stable though its blocks are not: here the first one gives nothing, and the
second one gives them both. -/
example :
    let text := "\x7b\x7b#if no\x7d\x7d\x7b\x7b/if\x7d\x7d\x7b\x7b#if x\x7d\x7d\x7b\x7bv\x7d\x7d\x7b\x7b/if\x7d\x7d"
    let scope : Scope := .root (.object [("v", .string text), ("x", .bool true)])
    IsStable (renderWithin 2) scope text.toList ∧
      renderIf (renderWithin 2) scope ['n', 'o'] [] = some [] := by
  decide +kernel

/-- A conditional with a tab in its tag stays when it is alone. One more pass would resolve it,
and so does a conditional elsewhere in the text that is written with a space. -/
theorem tabbed_is_not_stable :
    let text := "\x7b\x7b#if\tx\x7d\x7dA\x7b\x7b/if\x7d\x7d".toList
    let other := "\x7b\x7b#if y\x7d\x7d\x7b\x7b/if\x7d\x7d".toList
    countIfs (renderWithin 2) holding maxPasses text = some (0, text) ∧ 0 < maxPasses ∧
      ¬ IsStable (renderWithin 2) holding text ∧
      ifBlock.replace (renderIf (renderWithin 2) holding) text = some ['A'] ∧
      resolveIfs (renderWithin 2) holding maxPasses (text ++ other) = some ['A'] := by
  decide +kernel

end Folio.Template
