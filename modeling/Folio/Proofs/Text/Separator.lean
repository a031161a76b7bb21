import Mathlib.Data.List.Basic

/-!
# Texts with a separator

A character that is not in a text ends it: what stands in front of the character, and what
stands behind it, can be read off the two put together.
-/

namespace Folio.Text

section
variable {c : Char} {text : List Char}

theorem ne_of_notMem (h : c ∉ text) : ∀ d ∈ text, decide (d ≠ c) = true :=
  fun _ hd => decide_eq_true (ne_of_mem_of_not_mem hd h)

theorem takeWhile_ne (h : c ∉ text) (rest : List Char) :
    (text ++ c :: rest).takeWhile (· ≠ c) = text := by
  rw [List.takeWhile_append_of_pos (ne_of_notMem h), List.takeWhile_cons_of_neg (by simp),
    List.append_nil]

theorem dropWhile_ne (h : c ∉ text) (rest : List Char) :
    (text ++ c :: rest).dropWhile (· ≠ c) = c :: rest := by
  rw [List.dropWhile_append_of_pos (ne_of_notMem h), List.dropWhile_cons_of_neg (by simp)]

/-- A text is cut at the first of its separators in one way only. -/
theorem eq_of_append_cons {other rest more : List Char} (ht : c ∉ text) (ho : c ∉ other)
    (h : text ++ c :: rest = other ++ c :: more) : text = other ∧ rest = more := by
  have htext : text = other := by
    rw [← takeWhile_ne ht rest, h, takeWhile_ne ho more]
  subst htext
  exact ⟨rfl, (List.cons.inj (List.append_cancel_left h)).2⟩

end

end Folio.Text
