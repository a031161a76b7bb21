import Folio.Text.Blank
import Mathlib.Data.List.Basic
import Mathlib.Data.List.DropRight
import Mathlib.Data.List.TakeWhile

/-!
# Trimmed texts

A text is trimmed when neither of its ends is blank. Trimming makes a text so, and it takes off
just the blanks that were put around a trimmed text.
-/

namespace Folio.Text

/-- No blank stands at either end. -/
structure IsTrimmed (text : List Char) : Prop where
  head : ∀ c ∈ text.head?, isBlank c = false
  last : ∀ c ∈ text.getLast?, isBlank c = false

section
variable {text : List Char}

theorem dropWhile_of_head {p : Char → Bool} (h : ∀ c ∈ text.head?, p c = false) :
    text.dropWhile p = text := by
  cases text with
  | nil => rfl
  | cons c text => rw [List.dropWhile_cons_of_neg (by simp [h c rfl])]

theorem head?_dropWhile_eq_false {p : Char → Bool} :
    ∀ c ∈ (text.dropWhile p).head?, p c = false := by
  intro c hc
  have h := List.head?_dropWhile_not p text
  rw [hc] at h
  exact h

theorem isTrimmed_trim (text : List Char) : IsTrimmed (trim text) where
  head c hc := by
    have hprefix : trimEnd (trimStart text) <+: trimStart text := List.rdropWhile_prefix isBlank _
    obtain ⟨rest, hrest⟩ := hprefix
    have hstart : c ∈ (text.dropWhile isBlank).head? := by
      rw [show text.dropWhile isBlank = trimEnd (trimStart text) ++ rest from hrest.symm,
        List.head?_append, show (trimEnd (trimStart text)).head? = some c from hc]
      rfl
    exact head?_dropWhile_eq_false c hstart
  last c hc := by
    rw [trim, trimEnd, List.getLast?_reverse] at hc
    exact head?_dropWhile_eq_false c hc

/-- Blanks around a trimmed text are all that is taken off. -/
theorem IsTrimmed.trim_padded (h : IsTrimmed text) {before after : List Char}
    (hb : ∀ c ∈ before, isBlank c = true) (ha : ∀ c ∈ after, isBlank c = true) :
    trim (before ++ (text ++ after)) = text := by
  rw [trim, trimStart, List.dropWhile_append_of_pos hb]
  cases htext : text with
  | nil =>
    have hnone : after.dropWhile isBlank = [] := List.dropWhile_eq_nil_iff.mpr ha
    rw [List.nil_append, hnone]
    rfl
  | cons c rest =>
    rw [← htext]
    have hstart : (text ++ after).dropWhile isBlank = text ++ after := by
      refine dropWhile_of_head fun d hd => h.head d ?_
      rw [htext] at hd ⊢
      exact hd
    have hend : text.reverse.dropWhile isBlank = text.reverse := by
      refine dropWhile_of_head fun d hd => h.last d ?_
      rwa [List.head?_reverse] at hd
    rw [hstart, trimEnd, List.reverse_append,
      List.dropWhile_append_of_pos fun d hd => ha d (List.mem_reverse.mp hd), hend,
      List.reverse_reverse]

theorem IsTrimmed.trim_eq (h : IsTrimmed text) : trim text = text := by
  have htrim := h.trim_padded (List.forall_mem_nil _) (List.forall_mem_nil _)
  rwa [List.nil_append, List.append_nil] at htrim

theorem isTrimmed_iff : IsTrimmed text ↔ trim text = text :=
  ⟨IsTrimmed.trim_eq, fun h => h ▸ isTrimmed_trim text⟩

/-- Only the ends of a text count. -/
theorem IsTrimmed.between {other : List Char} (h : IsTrimmed text) (ho : IsTrimmed other)
    (hne : text ≠ []) (hone : other ≠ []) (middle : List Char) :
    IsTrimmed (text ++ (middle ++ other)) where
  head c hc := h.head c (by rwa [List.head?_append_of_ne_nil _ hne] at hc)
  last c hc := ho.last c (by
    rwa [← List.append_assoc, List.getLast?_append_of_ne_nil _ hone] at hc)

theorem trim_eq_nil (h : ∀ c ∈ text, isBlank c = true) : trim text = [] := by
  have hnil : IsTrimmed [] := ⟨by simp, by simp⟩
  have htrim := hnil.trim_padded h (List.forall_mem_nil _)
  rwa [List.nil_append, List.append_nil] at htrim

/-- A text is what trimming leaves of it, and blanks on both sides. -/
theorem exists_padding (text : List Char) :
    ∃ before after, (∀ c ∈ before, isBlank c = true) ∧ (∀ c ∈ after, isBlank c = true) ∧
      text = before ++ (trim text ++ after) := by
  have hend : trimStart text =
      trim text ++ ((trimStart text).reverse.takeWhile isBlank).reverse := by
    rw [trim, trimEnd, ← List.reverse_append, List.takeWhile_append_dropWhile,
      List.reverse_reverse]
  refine ⟨text.takeWhile isBlank, ((trimStart text).reverse.takeWhile isBlank).reverse,
    fun c hc => List.mem_takeWhile_imp hc,
    fun c hc => List.mem_takeWhile_imp (List.mem_reverse.mp hc), ?_⟩
  rw [← hend]
  exact List.takeWhile_append_dropWhile.symm

end

end Folio.Text
