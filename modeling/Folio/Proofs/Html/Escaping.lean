import Folio.Html
import Mathlib.Data.List.Basic

/-!
# Escaped text

An escaped text has no mark of a page but ampersands, and each of these begins an entity. Nothing
is lost: with the entities read from the left the text comes back. A text that looks like an
entity is no exception, because its own ampersand is escaped as well.
-/

namespace Folio.Html

/-- The characters that have an entity. -/
def marks : List Char := ['&', '<', '>', '"', '\'']

/-- Puts each mark in the place of its entity, from the left. -/
def unescape : List Char → List Char
  | '&' :: 'a' :: 'm' :: 'p' :: ';' :: rest => '&' :: unescape rest
  | '&' :: 'l' :: 't' :: ';' :: rest => '<' :: unescape rest
  | '&' :: 'g' :: 't' :: ';' :: rest => '>' :: unescape rest
  | '&' :: 'q' :: 'u' :: 'o' :: 't' :: ';' :: rest => '"' :: unescape rest
  | '&' :: '#' :: '0' :: '3' :: '9' :: ';' :: rest => '\'' :: unescape rest
  | c :: rest => c :: unescape rest
  | [] => []

section
variable {c : Char} {text : List Char}

-- ---------------------------------------------------------------------------
-- Entities
-- ---------------------------------------------------------------------------

/-- An entity is a name between an ampersand and a semicolon. -/
theorem entity_of_mem (h : c ∈ marks) :
    ∃ name, entity c = '&' :: (name ++ [';']) ∧ ∀ d ∈ name ++ [';'], d ∉ marks := by
  simp only [marks, List.mem_cons, List.not_mem_nil, or_false] at h
  rcases h with rfl | rfl | rfl | rfl | rfl
  · exact ⟨['a', 'm', 'p'], rfl, by decide⟩
  · exact ⟨['l', 't'], rfl, by decide⟩
  · exact ⟨['g', 't'], rfl, by decide⟩
  · exact ⟨['q', 'u', 'o', 't'], rfl, by decide⟩
  · exact ⟨['#', '0', '3', '9'], rfl, by decide⟩

theorem entity_of_notMem (h : c ∉ marks) : entity c = [c] := by
  unfold entity
  split
  case h_6 => rfl
  all_goals exact absurd (by decide) h

theorem escapeChars_cons (c : Char) (text : List Char) :
    escapeChars (c :: text) = entity c ++ escapeChars text :=
  List.flatMap_cons

theorem eq_ampersand_of_mem_entity {d : Char} (hd : d ∈ entity c) (hm : d ∈ marks) : d = '&' := by
  by_cases hc : c ∈ marks
  · obtain ⟨name, he, hn⟩ := entity_of_mem hc
    rw [he] at hd
    rcases List.mem_cons.mp hd with hd | hd
    · exact hd
    · exact absurd hm (hn d hd)
  · rw [entity_of_notMem hc, List.mem_singleton] at hd
    exact absurd (hd ▸ hm) hc

/-- Only the first character of an entity is an ampersand. -/
theorem eq_nil_of_entity_eq {before rest : List Char} (h : entity c = before ++ '&' :: rest) :
    before = [] ∧ c ∈ marks := by
  by_cases hc : c ∈ marks
  · refine ⟨?_, hc⟩
    obtain ⟨name, he, hn⟩ := entity_of_mem hc
    cases before with
    | nil => rfl
    | cons d before =>
      have htail : name ++ [';'] = before ++ '&' :: rest := (List.cons.inj (he.symm.trans h)).2
      have hmem : '&' ∈ name ++ [';'] := by simp [htail]
      exact absurd (by decide) (hn _ hmem)
  · have hmem : '&' ∈ entity c := by simp [h]
    rw [entity_of_notMem hc, List.mem_singleton] at hmem
    subst hmem
    exact absurd (by decide) hc

-- ---------------------------------------------------------------------------
-- Marks in an escaped text
-- ---------------------------------------------------------------------------

theorem eq_ampersand_of_mem_escapeChars (hc : c ∈ escapeChars text) (hm : c ∈ marks) :
    c = '&' := by
  obtain ⟨d, -, hd⟩ := List.mem_flatMap.mp hc
  exact eq_ampersand_of_mem_entity hd hm

/-- An ampersand is followed by the rest of an entity. -/
theorem entity_prefix_of_escapeChars_eq {before after : List Char}
    (h : escapeChars text = before ++ '&' :: after) :
    ∃ mark ∈ marks, entity mark <+: '&' :: after := by
  induction text generalizing before with
  | nil => simp [escapeChars] at h
  | cons c text ih =>
    rw [escapeChars_cons, List.append_eq_append_iff] at h
    rcases h with ⟨front, -, hrest⟩ | ⟨part, hc, hrest⟩
    · exact ih hrest
    · -- the ampersand stands in the entity, or first behind it
      cases part with
      | nil =>
        have hfirst : escapeChars text = [] ++ '&' :: after := hrest.symm
        exact ih hfirst
      | cons d part =>
        obtain ⟨rfl, hpart⟩ := List.cons.inj hrest
        obtain ⟨rfl, hmem⟩ := eq_nil_of_entity_eq hc
        exact ⟨c, hmem, by simp [hc, hpart]⟩

-- ---------------------------------------------------------------------------
-- Reading entities back
-- ---------------------------------------------------------------------------

theorem unescape_cons_of_ne (h : c ≠ '&') (rest : List Char) :
    unescape (c :: rest) = c :: unescape rest := by
  rw [unescape] <;> exact fun _ hc => absurd hc h

theorem unescape_entity (c : Char) (rest : List Char) :
    unescape (entity c ++ rest) = c :: unescape rest := by
  by_cases hc : c ∈ marks
  · simp only [marks, List.mem_cons, List.not_mem_nil, or_false] at hc
    rcases hc with rfl | rfl | rfl | rfl | rfl <;> rfl
  · rw [entity_of_notMem hc, List.singleton_append]
    exact unescape_cons_of_ne (by rintro rfl; exact hc (by decide)) rest

theorem unescape_escapeChars (text : List Char) : unescape (escapeChars text) = text := by
  induction text with
  | nil => rfl
  | cons c text ih => rw [escapeChars_cons, unescape_entity, ih]

end

/-- Escaped texts are harmless and hold all that was escaped, part by part. -/
theorem escape_inert_and_reversible :
    (∀ text : String, ∀ c ∈ (escape text).toList, c ∉ ['<', '>', '"', '\'']) ∧
      (∀ text before after, (escape text).toList = before ++ '&' :: after →
        ∃ mark ∈ marks, entity mark <+: '&' :: after) ∧
      (∀ text : String, unescape (escape text).toList = text.toList) ∧
      Function.Injective escape ∧
      ∀ text more : String, escape (text ++ more) = escape text ++ escape more := by
  have hchars (text : String) : (escape text).toList = escapeChars text.toList :=
    String.toList_ofList
  refine ⟨fun text c hc hm => ?_, fun text before after h => ?_, fun text => ?_,
    fun text other h => ?_, fun text more => ?_⟩
  · rw [hchars] at hc
    have hamp := eq_ampersand_of_mem_escapeChars hc (List.mem_cons_of_mem _ hm)
    subst hamp
    exact absurd hm (by decide)
  · rw [hchars] at h
    exact entity_prefix_of_escapeChars_eq h
  · rw [hchars, unescape_escapeChars]
  · have hback := congrArg (unescape ·.toList) h
    simp only [hchars, unescape_escapeChars] at hback
    exact String.toList_inj.mp hback
  · apply String.toList_inj.mp
    simp only [hchars, String.toList_append, escapeChars_append]

/-- An entity in the text stays text. -/
example : escape "&lt;b>" = "&amp;lt;b&gt;" := by decide

end Folio.Html
