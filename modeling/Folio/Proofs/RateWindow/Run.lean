import Folio.RateWindow
import Mathlib.Data.List.DropRight

/-!
# Runs of a window

Requests are recorded and counted at times that the clock shows. What a step drops would be
dropped by every later step as well, so behind a run a look sees the requests of the whole
run, from the first young one on. Where the clock never goes back these are the young
requests and no others.
-/

namespace Folio.RateWindow

/-- A step, and what the clock shows when it is made. -/
structure Timed where
  time : Int
  step : Step

def stepAt (window : RateWindow) (timed : Timed) : RateWindow × Answer :=
  window.step timed.time timed.step

def run (window : RateWindow) (steps : List Timed) : RateWindow :=
  steps.foldl (fun window timed => (window.stepAt timed).1) window

/-- The time of the request that a step records. -/
def Timed.request? (timed : Timed) : Option Int :=
  match timed.step with
  | .record => some timed.time
  | .perSecond | .total | .average => none

/-- The times of the requests of a run, in the order of its steps. -/
def requests (steps : List Timed) : List Int :=
  steps.filterMap Timed.request?

/-- A request is less than `age` old. One ahead of the time is. -/
def isYounger (age now t : Int) : Bool :=
  now - t < age

def younger (age now : Int) (times : List Int) : Nat :=
  times.countP (isYounger age now)

/-- What a step has to answer behind the requests of a history. -/
def exactAnswer (history : List Int) (timed : Timed) : Answer :=
  match timed.step with
  | .record => .done
  | .perSecond => .count (younger second timed.time history)
  | .total => .count (younger span timed.time history)
  | .average => .mean ((younger span timed.time history).toFloat / seconds.toFloat)

/-- The clock never goes back. Steps may be made at the same time. -/
def Forward (steps : List Timed) : Prop :=
  (steps.map Timed.time).Pairwise (· ≤ ·)

-- ---------------------------------------------------------------------------
-- Lists that pass from some place on
-- ---------------------------------------------------------------------------

section
variable {α : Type} {p q : α → Bool} {l : List α}

theorem dropWhile_append_dropWhile (h : ∀ a, q a = true → p a = true) (l m : List α) :
    (l.dropWhile q ++ m).dropWhile p = (l ++ m).dropWhile p := by
  induction l with
  | nil => rfl
  | cons a l ih =>
    by_cases hq : q a = true
    · simp [hq, h a hq, ih]
    · rw [List.dropWhile_cons_of_neg hq]

theorem filter_dropWhile_not (p : α → Bool) (l : List α) :
    (l.dropWhile fun a => !p a).filter p = l.filter p := by
  induction l with
  | nil => rfl
  | cons a l ih => cases hp : p a <;> simp [hp, ih]

/-- What passes is followed only by what passes. -/
theorem forall_mem_dropWhile_not :
    (∀ a ∈ l.dropWhile fun a => !p a, p a = true) ↔
      l.Pairwise fun a b => p a = true → p b = true := by
  induction l with
  | nil => simp
  | cons a l ih =>
    rw [List.pairwise_cons]
    cases hp : p a with
    | false => simp [hp, ih]
    | true =>
      simp only [hp, List.dropWhile_cons, Bool.not_true, Bool.false_eq_true, if_false,
        List.forall_mem_cons, forall_const, true_and]
      exact ⟨fun h => ⟨h, List.pairwise_of_forall_mem_list fun _ _ b hb _ => h b hb⟩, And.left⟩

/-- From the back nothing is met of what was dropped in front. -/
theorem takeWhile_reverse_dropWhile_not (h : ∀ a, q a = true → p a = true) (l : List α) :
    (l.dropWhile fun a => !p a).reverse.takeWhile q = l.reverse.takeWhile q := by
  induction l with
  | nil => rfl
  | cons a l ih =>
    cases hp : p a with
    | true => rw [List.dropWhile_cons_of_neg (by simp [hp])]
    | false =>
      have hq : q a = false := by
        rw [← Bool.not_eq_true]
        exact fun hq => by simp [h a hq] at hp
      have hend : (l.reverse ++ [a]).takeWhile q = l.reverse.takeWhile q := by
        rw [List.takeWhile_append]
        split
        · rename_i hl
          rw [List.takeWhile_cons_of_neg (by simp [hq]), List.append_nil,
            (List.takeWhile_prefix q).eq_of_length hl]
        · rfl
      rw [List.dropWhile_cons_of_pos (by simp [hp]), ih, List.reverse_cons, hend]

theorem dropWhile_not_eq_filter (h : l.Pairwise fun a b => p a = true → p b = true) :
    (l.dropWhile fun a => !p a) = l.filter p := by
  rw [← filter_dropWhile_not, List.filter_eq_self.mpr (forall_mem_dropWhile_not.mpr h)]

theorem countP_le_length_dropWhile_not (p : α → Bool) (l : List α) :
    l.countP p ≤ (l.dropWhile fun a => !p a).length := by
  rw [List.countP_eq_length_filter, ← filter_dropWhile_not]
  exact List.length_filter_le ..

theorem length_dropWhile_not_eq_countP :
    (l.dropWhile fun a => !p a).length = l.countP p ↔
      l.Pairwise fun a b => p a = true → p b = true := by
  rw [← forall_mem_dropWhile_not, List.countP_eq_length_filter, ← filter_dropWhile_not,
    ← List.countP_eq_length_filter, eq_comm, List.countP_eq_length]

theorem length_takeWhile_le_countP (p : α → Bool) (l : List α) :
    (l.takeWhile p).length ≤ l.countP p := by
  induction l with
  | nil => simp
  | cons a l ih => cases hp : p a <;> simp [hp, ih]

theorem length_takeWhile_eq_countP :
    (l.takeWhile p).length = l.countP p ↔ l.Pairwise fun a b => p b = true → p a = true := by
  induction l with
  | nil => simp
  | cons a l ih =>
    rw [List.pairwise_cons]
    cases hp : p a with
    | true => simp [hp, ih]
    | false =>
      simp only [hp, List.takeWhile_cons, List.countP_cons, Bool.false_eq_true, if_false,
        List.length_nil, Nat.add_zero, imp_false, eq_comm (a := 0), List.countP_eq_zero]
      exact ⟨fun h => ⟨h, List.pairwise_of_forall_mem_list fun _ _ b hb hb' => absurd hb' (h b hb)⟩,
        And.left⟩

end

-- ---------------------------------------------------------------------------
-- What is left behind a run
-- ---------------------------------------------------------------------------

variable {window : RateWindow} {steps : List Timed} {now : Int}

theorem prune_times (window : RateWindow) (now : Int) :
    (window.prune now).times = window.times.dropWhile fun t => !isYounger span now t := by
  refine congrArg (List.dropWhile · window.times) (funext fun t => ?_)
  simp only [isYounger, ← decide_not, Int.not_lt]

@[simp] theorem requests_cons (timed : Timed) (steps : List Timed) :
    requests (timed :: steps) = timed.request?.toList ++ requests steps := by
  unfold requests
  cases h : timed.request? <;> simp [h]

@[simp] theorem requests_append (steps more : List Timed) :
    requests (steps ++ more) = requests steps ++ requests more :=
  List.filterMap_append

@[simp] theorem run_cons (window : RateWindow) (timed : Timed) (steps : List Timed) :
    window.run (timed :: steps) = (window.stepAt timed).1.run steps := rfl

theorem stepAt_times (window : RateWindow) (timed : Timed) :
    (window.stepAt timed).1.times =
      (window.times ++ timed.request?.toList).dropWhile fun t =>
        !isYounger span timed.time t := by
  obtain ⟨time, step⟩ := timed
  cases step with
  | record => exact prune_times _ time
  | perSecond | total | average =>
    simp only [Timed.request?, Option.toList_none, List.append_nil]
    exact prune_times window time

/-- Requests that were dropped earlier would be dropped now. -/
theorem prune_run (h : ∀ timed ∈ steps, timed.time ≤ now) :
    ((window.run steps).prune now).times =
      (window.times ++ requests steps).dropWhile fun t => !isYounger span now t := by
  induction steps generalizing window with
  | nil =>
    rw [show requests [] = [] from rfl, List.append_nil]
    exact prune_times window now
  | cons timed steps ih =>
    obtain ⟨ht, hs⟩ := List.forall_mem_cons.mp h
    have hold (t : Int) (h : (!isYounger span timed.time t) = true) :
        (!isYounger span now t) = true := by
      simp only [isYounger, Bool.not_eq_true', decide_eq_false_iff_not] at h ⊢
      omega
    rw [run_cons, ih hs, stepAt_times, dropWhile_append_dropWhile hold, requests_cons,
      List.append_assoc]

/-- The window is what is left of the requests at their end. -/
theorem run_suffix (window : RateWindow) (steps : List Timed) :
    (window.run steps).times <:+ window.times ++ requests steps := by
  induction steps generalizing window with
  | nil => simp [run, requests]
  | cons timed steps ih =>
    rw [run_cons, requests_cons, ← List.append_assoc]
    refine (ih _).trans ?_
    rw [stepAt_times]
    obtain ⟨dropped, hd⟩ := List.dropWhile_suffix (fun t => !isYounger span timed.time t)
      (l := window.times ++ timed.request?.toList)
    exact ⟨dropped, by rw [← List.append_assoc, hd]⟩

theorem total_run (h : ∀ timed ∈ steps, timed.time ≤ now) :
    (empty.run steps).total now =
      ((requests steps).dropWhile fun t => !isYounger span now t).length :=
  congrArg List.length (prune_run h)

/-- Counted from the back, the window ends where requests are too old for it. -/
theorem perSecond_run (h : ∀ timed ∈ steps, timed.time ≤ now) :
    (empty.run steps).perSecond now =
      ((requests steps).reverse.takeWhile (isYounger second now)).length := by
  have hspan (t : Int) (h : isYounger second now t = true) : isYounger span now t = true := by
    simp only [isYounger, decide_eq_true_eq] at h ⊢
    exact Int.lt_trans h (by decide)
  unfold perSecond
  rw [prune_run h, ← takeWhile_reverse_dropWhile_not hspan]
  rfl

-- ---------------------------------------------------------------------------
-- Runs of a clock that goes forward
-- ---------------------------------------------------------------------------

theorem Forward.requests (h : Forward steps) : (requests steps).Pairwise (· ≤ ·) := by
  refine List.pairwise_filterMap.mpr ((List.pairwise_map.mp h).imp ?_)
  rintro ⟨time, step⟩ ⟨later, other⟩ hle t ht s hs
  cases step <;> cases ht
  cases other <;> cases hs
  exact hle

/-- In the order of time a young request is followed by young ones. -/
theorem isYounger_of_ordered {times : List Int} (h : times.Pairwise (· ≤ ·)) (age now : Int) :
    times.Pairwise fun s t => isYounger age now s = true → isYounger age now t = true := by
  refine h.imp fun {s t} hle hs => ?_
  simp only [isYounger, decide_eq_true_eq] at hs ⊢
  omega

theorem Forward.total (h : Forward steps) (hn : ∀ timed ∈ steps, timed.time ≤ now) :
    (empty.run steps).total now = younger span now (RateWindow.requests steps) := by
  rw [total_run hn]
  exact length_dropWhile_not_eq_countP.mpr (isYounger_of_ordered h.requests span now)

theorem Forward.perSecond (h : Forward steps) (hn : ∀ timed ∈ steps, timed.time ≤ now) :
    (empty.run steps).perSecond now = younger second now (RateWindow.requests steps) := by
  rw [perSecond_run hn, younger, ← List.countP_reverse]
  exact length_takeWhile_eq_countP.mpr
    (List.pairwise_reverse.mpr (isYounger_of_ordered h.requests second now))

theorem Forward.answer (h : Forward steps) {timed : Timed}
    (hn : ∀ earlier ∈ steps, earlier.time ≤ timed.time) :
    ((empty.run steps).stepAt timed).2 = exactAnswer (RateWindow.requests steps) timed := by
  obtain ⟨time, step⟩ := timed
  replace hn : ∀ earlier ∈ steps, earlier.time ≤ time := hn
  cases step with
  | record => rfl
  | perSecond =>
    show Answer.count ((empty.run steps).perSecond time) = .count (younger second time _)
    rw [h.perSecond hn]
  | total =>
    show Answer.count ((empty.run steps).total time) = .count (younger span time _)
    rw [h.total hn]
  | average =>
    show Answer.mean (((empty.run steps).total time).toFloat / seconds.toFloat) =
      .mean ((younger span time _).toFloat / seconds.toFloat)
    rw [h.total hn]

theorem Forward.le_last {timed : Timed} (h : Forward (steps ++ [timed])) :
    ∀ earlier ∈ steps ++ [timed], earlier.time ≤ timed.time := by
  intro earlier hm
  obtain ⟨-, -, hp⟩ := List.pairwise_append.mp (List.pairwise_map.mp h)
  rcases List.mem_append.mp hm with hm | hm
  · exact hp earlier hm timed List.mem_cons_self
  · exact Int.le_of_eq (congrArg Timed.time (List.mem_singleton.mp hm))

/-- A step leaves just the young ones of the requests up to its own. -/
theorem Forward.times_stepAt {timed : Timed} (h : Forward (steps ++ [timed])) :
    ((empty.run steps).stepAt timed).1.times =
      (RateWindow.requests (steps ++ [timed])).filter (isYounger span timed.time) := by
  have hrun : empty.run (steps ++ [timed]) = ((empty.run steps).stepAt timed).1 := by
    simp [run]
  calc ((empty.run steps).stepAt timed).1.times
    _ = (((empty.run steps).stepAt timed).1.prune timed.time).times := by
      rw [prune_times, stepAt_times, List.dropWhile_idempotent]
    _ = (RateWindow.requests (steps ++ [timed])).filter (isYounger span timed.time) := by
      rw [← hrun, prune_run h.le_last]
      exact dropWhile_not_eq_filter (isYounger_of_ordered h.requests span timed.time)

/-- Whatever happens in between, a step answers with the number of requests that are less
than a second or less than ten seconds old at its time, and the window is what is left of the
requests at their end, in the order of time. -/
theorem run_counts_exactly (h : Forward steps) :
    (∀ before timed after, steps = before ++ timed :: after →
      ((empty.run before).stepAt timed).2 = exactAnswer (RateWindow.requests before) timed ∧
      ((empty.run before).stepAt timed).1.times =
        (RateWindow.requests (before ++ [timed])).filter (isYounger span timed.time)) ∧
      (empty.run steps).times <:+ RateWindow.requests steps ∧
      (empty.run steps).times.Pairwise (· ≤ ·) := by
  have hsuffix : (empty.run steps).times <:+ RateWindow.requests steps := run_suffix empty steps
  refine ⟨?_, hsuffix, h.requests.sublist hsuffix.sublist⟩
  rintro before timed after rfl
  have hto : Forward (before ++ [timed]) := by
    refine List.Pairwise.sublist (List.Sublist.map _ ?_) h
    simp
  refine ⟨?_, hto.times_stepAt⟩
  have hbefore : Forward before := List.Pairwise.sublist (List.Sublist.map _ (by simp)) hto
  exact hbefore.answer fun earlier hm => hto.le_last earlier (List.mem_append_left _ hm)

/-- Two requests at once, a look just at their first second's end, another request, and looks
at the end of the ten seconds of the first two. -/
def twoAtOnce : List Timed :=
  [⟨0, .record⟩, ⟨0, .record⟩, ⟨second, .perSecond⟩, ⟨span - second, .record⟩,
    ⟨span - 1, .total⟩, ⟨span - 1, .perSecond⟩, ⟨span, .average⟩]

theorem twoAtOnce_counts :
    Forward twoAtOnce ∧
      ((empty.run (twoAtOnce.take 2)).stepAt ⟨second, .perSecond⟩).2 = .count 0 ∧
      ((empty.run (twoAtOnce.take 4)).stepAt ⟨span - 1, .total⟩).2 = .count 3 ∧
      (empty.run twoAtOnce).times <:+ [0, 0, span - second] := by
  have hforward : Forward twoAtOnce := by
    unfold Forward
    decide
  obtain ⟨hsteps, hsuffix, -⟩ := run_counts_exactly hforward
  exact ⟨hforward, (hsteps (twoAtOnce.take 2) _ _ rfl).1, (hsteps (twoAtOnce.take 4) _ _ rfl).1,
    hsuffix⟩

end Folio.RateWindow
