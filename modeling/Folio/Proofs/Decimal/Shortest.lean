import Folio.Proofs.Decimal.Written
import Mathlib.Algebra.Order.Field.Power
import Mathlib.Data.Nat.Cast.Order.Field
import Mathlib.Data.Rat.Cast.Order
import Mathlib.Tactic.FieldSimp
import Mathlib.Tactic.Linarith

/-!
# Shortest digits read back

The digits found for a double lie among the reals that round to it. Seventeen digits are
enough for that, whatever the double, so digits are always found. No real rounds to two
doubles, so digits of one value belong to doubles of one magnitude.
-/

namespace Folio.Decimal

-- ---------------------------------------------------------------------------
-- Intervals
-- ---------------------------------------------------------------------------

/-- The value lies in the interval, whose ends count units. -/
def Interval.Holds (interval : Interval) (unit value : ℚ) : Prop :=
  if interval.closed then interval.low * unit ≤ value ∧ value ≤ interval.high * unit
  else interval.low * unit < value ∧ value < interval.high * unit

theorem Interval.Holds.le {interval : Interval} {unit value : ℚ} (h : interval.Holds unit value) :
    interval.low * unit ≤ value ∧ value ≤ interval.high * unit := by
  unfold Holds at h
  split at h
  · exact h
  · exact ⟨h.1.le, h.2.le⟩

theorem Interval.Holds.closed_of_eq {interval : Interval} {unit value : ℚ}
    (h : interval.Holds unit value)
    (heq : value = interval.low * unit ∨ value = interval.high * unit) :
    interval.closed = true := by
  by_contra hopen
  obtain ⟨hlow, hhigh⟩ : _ ∧ _ := by simpa [Holds, hopen] using h
  rcases heq with heq | heq
  · exact hlow.ne heq.symm
  · exact hhigh.ne heq

/-- A point of a grid whose steps and whose units are whole multiples of one length. -/
theorem Interval.Holds.of_contains {interval : Interval} {factor grid n : Nat} {unit step : ℚ}
    (h : (interval.scale factor).contains (n * grid) = true) {length : ℚ} (hl : 0 < length)
    (hunit : unit = factor * length) (hstep : step = grid * length) :
    interval.Holds unit (n * step) := by
  have hmul (m : Nat) : (m : ℚ) * unit = ((m * factor : Nat) : ℚ) * length := by
    rw [hunit]
    push_cast
    ring
  have hpoint : (n : ℚ) * step = ((n * grid : Nat) : ℚ) * length := by
    rw [hstep]
    push_cast
    ring
  simp only [Holds, hmul, hpoint, mul_le_mul_iff_left₀ hl, mul_lt_mul_iff_left₀ hl, Nat.cast_le,
    Nat.cast_lt]
  rw [contains, scale] at h
  cases hc : interval.closed <;> simpa [hc] using h

theorem Interval.contains_of_lt {interval : Interval} {n : Nat} (hl : interval.low < n)
    (hh : n < interval.high) : interval.contains n = true := by
  cases hc : interval.closed <;> simp [contains, hc] <;> omega

theorem Interval.not_contains_of_gridPoint? {interval : Interval} {grid : Nat}
    (h : interval.gridPoint? grid = none) :
    interval.contains (interval.center / grid * grid) = false ∧
      interval.contains ((interval.center / grid + 1) * grid) = false := by
  simp only [gridPoint?] at h
  split at h
  · cases h
  · cases h
  · cases h
  · next hbelow habove => exact ⟨hbelow, habove⟩

/-- Steps shorter than the interval meet it. -/
theorem Interval.exists_gridPoint? {interval : Interval} {grid : Nat}
    (hlow : interval.low < interval.center) (hhigh : interval.center < interval.high)
    (hpos : 0 < grid) (hgrid : interval.low + grid < interval.high) :
    ∃ n, interval.gridPoint? grid = some n := by
  refine Option.ne_none_iff_exists'.mp fun hnone => ?_
  obtain ⟨hbelow, habove⟩ := not_contains_of_gridPoint? hnone
  have hle : interval.center / grid * grid ≤ interval.center := Nat.div_mul_le_self _ _
  have hlt : interval.center < interval.center / grid * grid + grid :=
    Nat.lt_div_mul_add hpos
  rw [Nat.succ_mul] at habove
  -- the point below the centre is at or below the low end, so the next one is inside
  have hout : interval.center / grid * grid ≤ interval.low := by
    by_contra hin
    rw [contains_of_lt (by omega) (by omega)] at hbelow
    cases hbelow
  rw [contains_of_lt (by omega) (by omega)] at habove
  cases habove

-- ---------------------------------------------------------------------------
-- Powers
-- ---------------------------------------------------------------------------

theorem zpow_eq_div (base : ℚ) (hb : base ≠ 0) (power : Int) :
    base ^ power = base ^ power.toNat / base ^ (-power).toNat := by
  have hpower : power = power.toNat - (-power).toNat := by omega
  conv_lhs => rw [hpower]
  rw [zpow_sub₀ hb, zpow_natCast, zpow_natCast]

theorem pow_length_toDigits_le {n : Nat} (h : 0 < n) :
    10 ^ ((Nat.toDigits 10 n).length - 1) ≤ n := by
  rcases Nat.eq_zero_or_pos ((Nat.toDigits 10 n).length - 1) with hone | hmore
  · rw [hone]
    exact h
  · refine Nat.le_of_not_lt fun hlt => ?_
    have hle := (Nat.length_toDigits_le_iff (by omega) hmore).mpr hlt
    omega

theorem lt_pow_length_toDigits (n : Nat) : n < 10 ^ (Nat.toDigits 10 n).length :=
  (Nat.length_toDigits_le_iff (by omega) Nat.length_toDigits_pos).mp (Nat.le_refl _)

theorem leadingExponent_le {top bottom : Nat} (ht : 0 < top) (hb : 0 < bottom) :
    (10 : ℚ) ^ leadingExponent top bottom ≤ top / bottom := by
  unfold leadingExponent
  split
  · next hle =>
    have hlength := Nat.length_toDigits_pos (b := 10) (n := top / bottom)
    have hpower : ((Nat.toDigits 10 (top / bottom)).length : Int) - 1 =
        ((Nat.toDigits 10 (top / bottom)).length - 1 : Nat) := by omega
    have hpow := pow_length_toDigits_le (Nat.div_pos hle hb)
    rw [hpower, zpow_natCast]
    exact le_trans (by exact_mod_cast hpow) Nat.cast_div_le
  · have hlt := (Nat.div_lt_iff_lt_mul ht).mp (lt_pow_length_toDigits ((bottom - 1) / top))
    have hle : bottom ≤ top * 10 ^ (Nat.toDigits 10 ((bottom - 1) / top)).length := by
      rw [Nat.mul_comm]
      omega
    rw [ten_zpow_neg rfl, inv_eq_one_div, div_le_div_iff₀ (by positivity) (by exact_mod_cast hb),
      one_mul]
    exact_mod_cast hle

-- ---------------------------------------------------------------------------
-- Digits on a grid
-- ---------------------------------------------------------------------------

namespace Double

/-- The length of which the ends of the interval are multiples. -/
def unit (x : Double) : ℚ :=
  2 ^ (x.exponent - 2)

theorem unit_pos (x : Double) : 0 < x.unit :=
  zpow_pos rfl _

/-- The value rounds to the double, up to its sign. -/
def Rounds (x : Double) (value : ℚ) : Prop :=
  x.interval.Holds x.unit value

/-- A unit in parts so small that the steps of the grid of `10 ^ last` are whole as well. -/
def unitParts (x : Double) (last : Int) : Nat :=
  Nat.pow 2 (x.exponent - 2).toNat * Nat.pow 10 (-last).toNat

/-- A step of the grid in such parts. -/
def stepParts (x : Double) (last : Int) : Nat :=
  Nat.pow 2 (-(x.exponent - 2)).toNat * Nat.pow 10 last.toNat

theorem onGrid?_eq (x : Double) (last : Int) :
    x.onGrid? last =
      ((x.interval.scale (x.unitParts last)).gridPoint? (x.stepParts last)).map
        (Digits.ofSteps · last) :=
  rfl

theorem unitParts_pos (x : Double) (last : Int) : 0 < x.unitParts last := by
  simp only [unitParts, Nat.pow_eq]
  positivity

theorem stepParts_pos (x : Double) (last : Int) : 0 < x.stepParts last := by
  simp only [stepParts, Nat.pow_eq]
  positivity

theorem exists_part (x : Double) (last : Int) :
    ∃ part : ℚ, 0 < part ∧ x.unit = x.unitParts last * part ∧
      (10 : ℚ) ^ last = x.stepParts last * part := by
  refine ⟨1 / (2 ^ (-(x.exponent - 2)).toNat * 10 ^ (-last).toNat), by positivity, ?_, ?_⟩
  · simp only [unit, unitParts, Nat.pow_eq, zpow_eq_div 2 two_ne_zero (x.exponent - 2)]
    push_cast
    field_simp
  · simp only [stepParts, Nat.pow_eq, zpow_eq_div 10 (by norm_num) last]
    push_cast
    field_simp

variable {x : Double} {last : Int} {d : Digits}

theorem rounds_of_onGrid? (h : x.onGrid? last = some d) : x.Rounds d.value := by
  rw [onGrid?_eq] at h
  obtain ⟨steps, hs, rfl⟩ := Option.map_eq_some_iff.mp h
  obtain ⟨part, hpos, hunit, hstep⟩ := x.exists_part last
  rw [Digits.value_ofSteps]
  exact .of_contains (Interval.contains_of_gridPoint? hs) hpos hunit hstep

theorem proper_of_onGrid? (h : x.onGrid? last = some d) : d.Proper := by
  obtain ⟨steps, -, rfl⟩ := Option.map_eq_some_iff.mp h
  exact Digits.proper_ofSteps steps last

theorem interval_lt (hm : 0 < x.mantissa) :
    x.interval.low < x.interval.center ∧ x.interval.center < x.interval.high := by
  simp only [interval]
  split <;> omega

/-- A grid finer than the interval has digits. -/
theorem exists_onGrid? (hm : 0 < x.mantissa)
    (h : x.interval.low * x.unit + 10 ^ last < x.interval.high * x.unit) :
    ∃ d, x.onGrid? last = some d := by
  obtain ⟨part, hpos, hunit, hstep⟩ := x.exists_part last
  obtain ⟨hlow, hhigh⟩ := interval_lt hm
  have hgrid : x.interval.low * x.unitParts last + x.stepParts last <
      x.interval.high * x.unitParts last := by
    rw [hunit, hstep, ← mul_assoc, ← mul_assoc, ← add_mul, mul_lt_mul_iff_left₀ hpos] at h
    exact_mod_cast h
  have hpoint : ∃ n, (x.interval.scale (x.unitParts last)).gridPoint? (x.stepParts last) = some n :=
    Interval.exists_gridPoint? (Nat.mul_lt_mul_of_pos_right hlow (x.unitParts_pos last))
      (Nat.mul_lt_mul_of_pos_right hhigh (x.unitParts_pos last)) (x.stepParts_pos last) hgrid
  obtain ⟨n, hn⟩ := hpoint
  rw [onGrid?_eq, hn]
  exact ⟨_, rfl⟩

-- ---------------------------------------------------------------------------
-- Seventeen digits
-- ---------------------------------------------------------------------------

/-- The mantissa has at most 53 binary digits, and it is the least with so many where the
doubles below lie closer. -/
structure Sized (x : Double) : Prop where
  mantissa_lt : x.mantissa < 2 ^ 53
  narrow_eq : x.narrow = true → x.mantissa = 2 ^ 52

theorem sized_ofBits (bits : Nat) : (ofBits bits).Sized := by
  refine ⟨?_, fun hn => ?_⟩
  · simp only [ofBits, Nat.pow_eq]
    split <;> omega
  · simp only [ofBits, Nat.pow_eq, Bool.and_eq_true, decide_eq_true_eq] at hn ⊢
    rw [if_neg (by omega), hn.1, Nat.zero_add]

theorem ratio_eq (x : Double) : (x.ratio.1 / x.ratio.2 : ℚ) = 4 * x.mantissa * x.unit := by
  have hunit : 4 * x.unit = 2 ^ x.exponent := by
    have hfour : (2 : ℚ) ^ (2 : Int) = 4 := by norm_num
    rw [unit, zpow_sub₀ two_ne_zero, hfour]
    ring
  have hpower := zpow_eq_div 2 two_ne_zero x.exponent
  simp only [ratio, Nat.pow_eq]
  push_cast
  rw [mul_right_comm, hunit, hpower]
  ring

/-- The power of ten of the first digit. -/
def firstExponent (x : Double) : Int :=
  leadingExponent x.ratio.1 x.ratio.2

theorem firstExponent_le (hm : 0 < x.mantissa) :
    (10 : ℚ) ^ x.firstExponent ≤ 4 * x.mantissa * x.unit := by
  rw [← ratio_eq]
  refine leadingExponent_le ?_ ?_
  · simp only [ratio, Nat.pow_eq]
    positivity
  · simp only [ratio, Nat.pow_eq]
    positivity

theorem Sized.exists_seventeen (h : x.Sized) (hm : 0 < x.mantissa) :
    ∃ d, x.onGrid? (x.firstExponent - 16) = some d := by
  refine exists_onGrid? hm ?_
  have hwidth : x.interval.low * 10 ^ 16 + 4 * x.mantissa < x.interval.high * 10 ^ 16 := by
    obtain ⟨hlt, hnarrow⟩ := h
    simp only [interval]
    split
    · next hn =>
      have := hnarrow hn
      omega
    · omega
  have hwidth' : (x.interval.low * 10 ^ 16 + 4 * x.mantissa : ℚ) < x.interval.high * 10 ^ 16 := by
    exact_mod_cast hwidth
  have hstep : (10 : ℚ) ^ (x.firstExponent - 16) * 10 ^ 16 ≤ 4 * x.mantissa * x.unit := by
    rw [← ten_zpow_add _ (sub_add_cancel x.firstExponent 16).symm]
    exact firstExponent_le hm
  have hscaled := mul_lt_mul_of_pos_right hwidth' x.unit_pos
  linarith

theorem shortest_eq (hm : x.mantissa ≠ 0) :
    x.shortest = ((List.range 17).findSome? fun (k : Nat) =>
      x.onGrid? (x.firstExponent - k)).getD ⟨['0'], 0⟩ :=
  if_neg hm

theorem shortest_zero (hm : x.mantissa = 0) : x.shortest = ⟨['0'], 0⟩ :=
  if_pos hm

/-- Digits are found on some grid, so they are never made up. -/
theorem Sized.exists_onGrid_shortest (h : x.Sized) (hm : x.mantissa ≠ 0) :
    ∃ last, x.onGrid? last = some x.shortest := by
  rw [shortest_eq hm]
  cases hd : (List.range 17).findSome? fun (k : Nat) => x.onGrid? (x.firstExponent - k) with
  | none =>
    obtain ⟨d, hlast⟩ := h.exists_seventeen (Nat.pos_of_ne_zero hm)
    have hnone := List.findSome?_eq_none_iff.mp hd 16 (List.mem_range.mpr (by omega))
    cases hnone.symm.trans hlast
  | some d =>
    obtain ⟨k, -, hk⟩ := List.exists_of_findSome?_eq_some hd
    exact ⟨_, hk⟩

theorem Sized.proper_shortest (h : x.Sized) : x.shortest.Proper := by
  by_cases hm : x.mantissa = 0
  · rw [shortest_zero hm]
    exact ⟨by simp, by simp⟩
  · obtain ⟨last, hlast⟩ := h.exists_onGrid_shortest hm
    exact proper_of_onGrid? hlast

/-- The shortest digits read back. -/
theorem Sized.rounds_shortest (h : x.Sized) : x.Rounds x.shortest.value := by
  by_cases hm : x.mantissa = 0
  · have hvalue : Digits.value ⟨['0'], 0⟩ = 0 := by
      simp [Digits.value, Numeral.valueOf, Numeral.digitValue]
    have hunit := x.unit_pos.le
    simp [shortest_zero hm, hvalue, Rounds, Interval.Holds, interval, hm, hunit]
  · obtain ⟨last, hlast⟩ := h.exists_onGrid_shortest hm
    exact rounds_of_onGrid? hlast

-- ---------------------------------------------------------------------------
-- Neighbours
-- ---------------------------------------------------------------------------

def lowEnd (x : Double) : ℚ :=
  x.interval.low * x.unit

def highEnd (x : Double) : ℚ :=
  x.interval.high * x.unit

theorem lowEnd_lt_highEnd (x : Double) : x.lowEnd < x.highEnd := by
  have hends : x.interval.low < x.interval.high := by
    simp only [interval]
    split <;> omega
  exact mul_lt_mul_of_pos_right (by exact_mod_cast hends) x.unit_pos

theorem ofBits_fields {field fraction : Nat} (hfield : field < 2 ^ 11)
    (hfraction : fraction < 2 ^ 52) :
    ofBits (field * 2 ^ 52 + fraction) =
      ⟨false, if field = 0 then fraction else fraction + 2 ^ 52,
        if field = 0 then -1074 else (field : Int) - 1075, fraction = 0 && 1 < field⟩ := by
  have hfront : (field * 2 ^ 52 + fraction) / 2 ^ 52 % 2 ^ 11 = field := by omega
  have hback : (field * 2 ^ 52 + fraction) % 2 ^ 52 = fraction := by omega
  have hsign : ¬ (field * 2 ^ 52 + fraction) / 2 ^ 63 = 1 := by omega
  simp only [ofBits, Nat.pow_eq, hfront, hback, hsign, decide_false]

theorem closed_ofBits (bits : Nat) : (ofBits bits).interval.closed = decide (bits % 2 = 0) := by
  simp only [ofBits, interval, Nat.pow_eq, decide_eq_decide]
  split <;> omega

/-- Where one double ends the next one begins. -/
theorem highEnd_ofBits {bits : Nat} (h : bits + 1 < 2 ^ 63) :
    (ofBits bits).highEnd = (ofBits (bits + 1)).lowEnd := by
  obtain ⟨field, fraction, hfield, hfraction, rfl⟩ : ∃ field fraction,
      field < 2 ^ 11 ∧ fraction < 2 ^ 52 ∧ bits = field * 2 ^ 52 + fraction :=
    ⟨bits / 2 ^ 52, bits % 2 ^ 52, by omega, by omega, by omega⟩
  by_cases hlast : fraction + 1 < 2 ^ 52
  · rw [Nat.add_assoc, ofBits_fields hfield hfraction, ofBits_fields hfield hlast]
    have hends : 4 * (if field = 0 then fraction else fraction + 2 ^ 52) + 2 =
        4 * (if field = 0 then fraction + 1 else fraction + 1 + 2 ^ 52) - 2 := by
      split <;> omega
    simp only [highEnd, lowEnd, unit, interval, hends, Nat.succ_ne_zero, decide_false,
      Bool.false_and, Bool.false_eq_true, if_false]
  · have hnext : field * 2 ^ 52 + fraction + 1 = (field + 1) * 2 ^ 52 + 0 := by omega
    have hfraction : fraction = 2 ^ 52 - 1 := by omega
    subst hfraction
    rw [hnext, ofBits_fields hfield (by omega), ofBits_fields (by omega) (by omega)]
    rcases Nat.eq_zero_or_pos field with rfl | hpos
    · norm_num [highEnd, lowEnd, unit, interval]
    · -- twice the unit and half as many of them
      have hexponent : (2 : ℚ) ^ ((field : Int) + 1 - 1075 - 2) =
          2 * 2 ^ ((field : Int) - 1075 - 2) := by
        rw [← zpow_one_add₀ two_ne_zero]
        congr 1
        omega
      simp [highEnd, lowEnd, unit, interval, hpos, hpos.ne', hexponent]
      ring

theorem highEnd_le_lowEnd {bits later : Nat} (h : bits < later) (hl : later < 2 ^ 63) :
    (ofBits bits).highEnd ≤ (ofBits later).lowEnd := by
  induction later, h using Nat.le_induction with
  | base => exact (highEnd_ofBits hl).le
  | succ later hle ih =>
    calc (ofBits bits).highEnd ≤ (ofBits later).lowEnd := ih (by omega)
      _ ≤ (ofBits later).highEnd := (lowEnd_lt_highEnd _).le
      _ = (ofBits (later + 1)).lowEnd := highEnd_ofBits hl

/-- Between two doubles that are not neighbours there is a whole double. -/
theorem highEnd_lt_lowEnd {bits later : Nat} (h : bits + 1 < later) (hl : later < 2 ^ 63) :
    (ofBits bits).highEnd < (ofBits later).lowEnd :=
  calc (ofBits bits).highEnd = (ofBits (bits + 1)).lowEnd := highEnd_ofBits (by omega)
    _ < (ofBits (bits + 1)).highEnd := lowEnd_lt_highEnd _
    _ ≤ (ofBits later).lowEnd := highEnd_le_lowEnd h hl

theorem not_rounds_of_lt {bits later : Nat} (h : bits < later) (hl : later < 2 ^ 63) {value : ℚ}
    (hb : (ofBits bits).Rounds value) : ¬ (ofBits later).Rounds value := by
  intro hr
  have hhigh : value = (ofBits bits).highEnd :=
    le_antisymm hb.le.2 ((highEnd_le_lowEnd h hl).trans hr.le.1)
  have hlow : value = (ofBits later).lowEnd :=
    le_antisymm (hb.le.2.trans (highEnd_le_lowEnd h hl)) hr.le.1
  -- an end belongs to the even one of two neighbours only
  have heven : bits % 2 = 0 := by simpa [closed_ofBits] using hb.closed_of_eq (.inr hhigh)
  have heven' : later % 2 = 0 := by simpa [closed_ofBits] using hr.closed_of_eq (.inl hlow)
  have hlt := highEnd_lt_lowEnd (show bits + 1 < later by omega) hl
  rw [← hhigh, ← hlow] at hlt
  exact lt_irrefl _ hlt

/-- A value rounds to one magnitude. -/
theorem eq_of_rounds {bits other : Nat} (hb : bits < 2 ^ 63) (ho : other < 2 ^ 63) {value : ℚ}
    (h : (ofBits bits).Rounds value) (h' : (ofBits other).Rounds value) : bits = other := by
  rcases Nat.lt_trichotomy bits other with hlt | heq | hlt
  · exact absurd h' (not_rounds_of_lt hlt ho h)
  · exact heq
  · exact absurd h (not_rounds_of_lt hlt hb h')

/-- The highest bit is the sign and nothing else. -/
theorem ofBits_eq (bits : Nat) :
    ofBits bits = { ofBits (bits % 2 ^ 63) with negative := bits / 2 ^ 63 = 1 } := by
  have hfield : bits % 2 ^ 63 / 2 ^ 52 % 2 ^ 11 = bits / 2 ^ 52 % 2 ^ 11 := by omega
  have hfraction : bits % 2 ^ 63 % 2 ^ 52 = bits % 2 ^ 52 := by omega
  simp only [ofBits, Nat.pow_eq, hfield, hfraction]

theorem rounds_shortest_ofBits (bits : Nat) :
    (ofBits (bits % 2 ^ 63)).Rounds (ofBits bits).shortest.value := by
  rw [ofBits_eq bits]
  exact (sized_ofBits (bits % 2 ^ 63)).rounds_shortest

/-- Two doubles of one sign have shortest digits of two values. -/
theorem eq_of_shortest_value_eq {bits other : Nat} (hb : bits < 2 ^ 64) (ho : other < 2 ^ 64)
    (hsign : (ofBits bits).negative = (ofBits other).negative)
    (hvalue : (ofBits bits).shortest.value = (ofBits other).shortest.value) : bits = other := by
  have hrounds := rounds_shortest_ofBits bits
  rw [hvalue] at hrounds
  have hmagnitude : bits % 2 ^ 63 = other % 2 ^ 63 :=
    eq_of_rounds (by omega) (by omega) hrounds (rounds_shortest_ofBits other)
  simp only [ofBits, Nat.pow_eq, decide_eq_decide] at hsign
  omega

end Double

end Folio.Decimal
