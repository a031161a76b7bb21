import Folio.Proofs.RateWindow.Run

/-!
# Requests that overtake each other

A request takes its time before it reaches the window, so requests that come together are
recorded in any order of their times. The window looks for old requests at its front and for
recent ones at its back only. A request that is too young hides older ones behind it at the
front, and one that is too old hides recent ones at the back. Exactly then the counts are
wrong: the total too large, the number of the last second too small.
-/

namespace Folio.RateWindow

/-- Each request is recorded at its own time. -/
def arriving (arrivals : List Int) : List Timed :=
  arrivals.map fun t => ⟨t, .record⟩

theorem requests_arriving (arrivals : List Int) : requests (arriving arrivals) = arrivals := by
  induction arrivals with
  | nil => rfl
  | cons t arrivals ih =>
    rw [arriving, List.map_cons, requests_cons, ← arriving, ih]
    rfl

/-- No request that is `age` old or older has been overtaken by one that is not. -/
def InOrder (age now : Int) (arrivals : List Int) : Prop :=
  arrivals.Pairwise fun s t => now - s < age → now - t < age

theorem inOrder_iff {age now : Int} {arrivals : List Int} :
    InOrder age now arrivals ↔
      arrivals.Pairwise fun s t => isYounger age now s = true → isYounger age now t = true := by
  simp only [InOrder, isYounger, decide_eq_true_eq]

theorem younger_perm {arrivals stamps : List Int} (h : arrivals.Perm stamps) (age now : Int) :
    younger age now arrivals = younger age now stamps :=
  h.countP_eq _

/-- In whatever order requests arrive, their total is never too small and their number in the
last second never too large. Each is right just when the order respects its bound. -/
theorem counts_of_arrivals {stamps arrivals : List Int} (hp : arrivals.Perm stamps) {now : Int}
    (hn : ∀ t ∈ stamps, t ≤ now) :
    younger span now stamps ≤ (empty.run (arriving arrivals)).total now ∧
      ((empty.run (arriving arrivals)).total now = younger span now stamps ↔
        InOrder span now arrivals) ∧
      (empty.run (arriving arrivals)).perSecond now ≤ younger second now stamps ∧
      ((empty.run (arriving arrivals)).perSecond now = younger second now stamps ↔
        InOrder second now arrivals) := by
  have htime : ∀ timed ∈ arriving arrivals, timed.time ≤ now := by
    intro timed hm
    obtain ⟨t, ht, rfl⟩ := List.mem_map.mp hm
    exact hn t (hp.subset ht)
  have htotal := total_run htime
  have hsecond := perSecond_run htime
  rw [requests_arriving] at htotal hsecond
  rw [htotal, hsecond, ← younger_perm hp, ← younger_perm hp, inOrder_iff, inOrder_iff]
  refine ⟨countP_le_length_dropWhile_not .., length_dropWhile_not_eq_countP, ?_, ?_⟩
  · rw [younger, ← List.countP_reverse]
    exact length_takeWhile_le_countP ..
  · rw [younger, ← List.countP_reverse, length_takeWhile_eq_countP, List.pairwise_reverse]

/-- Three requests of which the last has been overtaken, while all of them are recent. -/
theorem overtaken_counts :
    [(5 : Int), 7, 6].Perm [5, 6, 7] ∧ (∀ t ∈ [5, 6, 7], t ≤ second) ∧
      (empty.run (arriving [5, 7, 6])).perSecond second = 3 ∧
      (empty.run (arriving [5, 7, 6])).total second = 3 := by
  have hp : [(5 : Int), 7, 6].Perm [5, 6, 7] := by decide
  have hn : ∀ t ∈ [(5 : Int), 6, 7], t ≤ second := by decide
  obtain ⟨-, htotal, -, hsecond⟩ := counts_of_arrivals hp hn
  have horder : InOrder second second [5, 7, 6] ∧ InOrder span second [5, 7, 6] := by
    unfold InOrder
    decide
  exact ⟨hp, hn, hsecond.mpr horder.1, htotal.mpr horder.2⟩

/-- A request that is overtaken by the least amount of time is missed at the end of the first
second, and counted for too long at the end of the tenth. -/
theorem overtaken_is_miscounted :
    [(1 : Int), 0].Perm [0, 1] ∧ (∀ t ∈ [0, 1], t ≤ second) ∧
      younger second second [0, 1] = 1 ∧
      (empty.run (arriving [0, 1])).perSecond second = 1 ∧
      (empty.run (arriving [1, 0])).perSecond second = 0 ∧
      younger span span [0, 1] = 1 ∧
      (empty.run (arriving [0, 1])).total span = 1 ∧
      (empty.run (arriving [1, 0])).total span = 2 := by
  decide

end Folio.RateWindow
