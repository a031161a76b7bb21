import Mathlib.Data.List.Forall2

/-!
# Attempts

What is known of an attempt is known of the attempts that it is made of. An attempt on a list is
one on each item: it comes to something when all of them do, and otherwise ends with the error of
the first that does not.
-/

namespace Folio.Attempt

-- ---------------------------------------------------------------------------
-- Attempts with errors
-- ---------------------------------------------------------------------------

section
variable {ε α β : Type}

theorem bind_ok {x : Except ε α} {f : α → Except ε β} {b : β} :
    x >>= f = .ok b ↔ ∃ a, x = .ok a ∧ f a = .ok b := by
  cases x <;> simp [bind, Except.bind]

theorem bind_error {x : Except ε α} {f : α → Except ε β} {e : ε} :
    x >>= f = .error e ↔ x = .error e ∨ ∃ a, x = .ok a ∧ f a = .error e := by
  cases x <;> simp [bind, Except.bind]

theorem pure_ok {a b : α} : (pure a : Except ε α) = .ok b ↔ a = b := by
  simp [pure, Except.pure]

theorem map_ok {x : Except ε α} {f : α → β} {b : β} :
    x.map f = .ok b ↔ ∃ a, x = .ok a ∧ f a = b := by
  cases x <;> simp [Except.map]

/-- Items are read up to the first that cannot be read. -/
theorem mapM_error {f : α → Except ε β} {e : ε} {items : List α} :
    items.mapM f = .error e ↔
      ∃ before item after, items = before ++ item :: after ∧
        (∀ other ∈ before, ∃ b, f other = .ok b) ∧ f item = .error e := by
  induction items with
  | nil =>
    refine ⟨nofun, ?_⟩
    rintro ⟨before, item, after, h, -⟩
    simp at h
  | cons item items ih =>
    have hpure (b : β) (bs : List β) : (pure (b :: bs) : Except ε (List β)) ≠ .error e := nofun
    simp only [List.mapM_cons, bind_error, ih, hpure, and_false, exists_false, or_false]
    constructor
    · rintro (h | ⟨b, hb, before, other, after, rfl, hbefore, h⟩)
      · exact ⟨[], item, items, rfl, List.forall_mem_nil _, h⟩
      · exact ⟨item :: before, other, after, rfl, List.forall_mem_cons.mpr ⟨⟨b, hb⟩, hbefore⟩, h⟩
    · rintro ⟨before, other, after, hi, hbefore, h⟩
      cases before with
      | nil =>
        obtain ⟨rfl, -⟩ := List.cons.inj hi
        exact .inl h
      | cons first before =>
        obtain ⟨rfl, rfl⟩ := List.cons.inj hi
        obtain ⟨⟨b, hb⟩, hbefore⟩ := List.forall_mem_cons.mp hbefore
        exact .inr ⟨b, hb, before, other, after, rfl, hbefore, h⟩

end

-- ---------------------------------------------------------------------------
-- Attempts that may give nothing
-- ---------------------------------------------------------------------------

section
variable {α β : Type} {f g : α → Option β} {items : List α}

theorem mapM_eq_some_iff {results : List β} :
    items.mapM f = some results ↔ List.Forall₂ (fun item b => f item = some b) items results := by
  induction items generalizing results with
  | nil => simp [@eq_comm _ _ results]
  | cons item items ih =>
    simp only [List.mapM_cons, Option.bind_eq_bind, Option.bind_eq_some_iff, ih,
      List.forall₂_cons_left_iff, Option.pure_def, Option.some.injEq, @eq_comm _ _ results,
      exists_and_left]

theorem mapM_eq_some {g : α → β} (h : ∀ item ∈ items, f item = some (g item)) :
    items.mapM f = some (items.map g) := by
  rw [mapM_eq_some_iff, List.forall₂_map_right_iff]
  exact List.forall₂_same.mpr h

theorem mapM_mono (h : ∀ item b, f item = some b → g item = some b) {results : List β}
    (hf : items.mapM f = some results) : items.mapM g = some results :=
  mapM_eq_some_iff.mpr ((mapM_eq_some_iff.mp hf).imp h)

theorem isSome_mapM : (items.mapM f).isSome ↔ ∀ item ∈ items, (f item).isSome := by
  induction items with
  | nil => simp
  | cons item items ih =>
    rw [List.mapM_cons, List.forall_mem_cons, ← ih]
    cases f item <;> cases items.mapM f <;> simp

end

end Folio.Attempt
