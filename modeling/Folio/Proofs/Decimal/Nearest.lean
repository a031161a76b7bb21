import Folio.Decimal.Extended
import Folio.Proofs.Decimal.Shortest

/-!
# Doubles nearest to integers

An integer with more binary digits than a mantissa has becomes the double nearest to it, and of
two equally near ones the even one. The digits behind the mantissa are dropped one after the
other; two bits of them are enough to say on which side of the half they lie.
-/

namespace Folio.Decimal

open Float.Model Float.Model.UnpackedFloat

-- ---------------------------------------------------------------------------
-- Dropped digits
-- ---------------------------------------------------------------------------

/-- The mantissa of `n` without its last `count` digits, and what the two bits say of these. -/
structure Drops (em : ExtendedMantissa) (n count : Nat) : Prop where
  mantissa_eq : em.mantissa = n / 2 ^ count
  /-- The half has been reached. -/
  roundBit_eq : em.roundBit = decide (2 ^ count ≤ 2 * (n % 2 ^ count))
  /-- Something other than zero or the half itself. -/
  stickyBit_eq : em.stickyBit =
    decide (2 * (n % 2 ^ count) ≠ 0 ∧ 2 * (n % 2 ^ count) ≠ 2 ^ count)

section
variable {em : ExtendedMantissa} {n count : Nat}

theorem drops_zero (n : Nat) : Drops (.ofMantissaAndAccuracy n .exact) n 0 where
  mantissa_eq := by simp [ExtendedMantissa.ofMantissaAndAccuracy]
  roundBit_eq := by simp [ExtendedMantissa.ofMantissaAndAccuracy, Nat.mod_one]
  stickyBit_eq := by simp [ExtendedMantissa.ofMantissaAndAccuracy, Nat.mod_one]

theorem Drops.succ (h : Drops em n count) : Drops em.shiftRightOne n (count + 1) := by
  obtain ⟨hm, hr, hs⟩ := h
  have hrest : n % 2 ^ (count + 1) = n % 2 ^ count + 2 ^ count * (n / 2 ^ count % 2) := by
    rw [Nat.pow_succ, Nat.mod_mul]
  have hlt : n % 2 ^ count < 2 ^ count := Nat.mod_lt _ (Nat.two_pow_pos count)
  have hbit : n / 2 ^ count % 2 = 0 ∨ n / 2 ^ count % 2 = 1 := Nat.mod_two_eq_zero_or_one _
  refine ⟨?_, ?_, ?_⟩
  · rw [ExtendedMantissa.shiftRightOne, hm, Nat.div_div_eq_div_mul, Nat.pow_succ]
  · rw [ExtendedMantissa.shiftRightOne, hm, hrest, Nat.pow_succ]
    rcases hbit with hb | hb <;> rw [hb] <;> simp <;> omega
  · rw [ExtendedMantissa.shiftRightOne, hr, hs, hrest, Nat.pow_succ]
    rcases hbit with hb | hb <;> rw [hb, ← Bool.decide_or, decide_eq_decide] <;> omega

theorem drops_shiftRight (n count : Nat) :
    Drops (ExtendedMantissa.ofMantissaAndAccuracy n .exact >>> count) n count := by
  induction count with
  | zero => exact drops_zero n
  | succ count ih => exact ih.succ

/-- What is left is rounded as the quotient is. -/
theorem Drops.roundedMantissa_eq (h : Drops em n count) :
    em.roundedMantissa = Extended.nearest n (2 ^ count) := by
  obtain ⟨hm, hr, hs⟩ := h
  have hpos : 0 < 2 ^ count := Nat.two_pow_pos count
  obtain ⟨mantissa, roundBit, stickyBit⟩ := em
  dsimp only at hm hr hs
  subst hm
  rw [Extended.nearest]
  generalize 2 * (n % 2 ^ count) = rest at hr hs ⊢
  rcases Nat.lt_trichotomy rest (2 ^ count) with hlt | heq | hgt
  · rw [decide_eq_false (by omega)] at hr
    have hexact : (n / 2 ^ count) = ExtendedMantissa.roundedMantissa
        ⟨n / 2 ^ count, roundBit, stickyBit⟩ := by
      rw [hr]
      cases stickyBit <;> rfl
    rw [← hexact, if_neg (by simp; omega)]
  · rw [decide_eq_true (by omega)] at hr
    rw [decide_eq_false (by omega)] at hs
    rcases Nat.mod_two_eq_zero_or_one (n / 2 ^ count) with hb | hb <;>
      simp [hr, hs, heq, hb, ExtendedMantissa.roundedMantissa, ExtendedMantissa.accuracy,
        Accuracy.roundToNearestEven]
  · rw [decide_eq_true (by omega)] at hr hs
    simp [hr, hs, hgt, ExtendedMantissa.roundedMantissa, ExtendedMantissa.accuracy,
      Accuracy.roundToNearestEven]

theorem nearest_mem (n count : Nat) :
    Extended.nearest n (2 ^ count) = n / 2 ^ count ∨
      Extended.nearest n (2 ^ count) = n / 2 ^ count + 1 := by
  simp only [Extended.nearest]
  split
  · exact .inr rfl
  · exact .inl rfl

end

-- ---------------------------------------------------------------------------
-- Bits of the nearest double
-- ---------------------------------------------------------------------------

section
variable {n m count : Nat}

theorem targetExponent_eq (m : Nat) (e : Int) :
    Format.binary64.targetExponent (totalExponent m e) = max (m.log2 + 1 + e - 53) (-1074) :=
  rfl

/-- The digits behind the 53rd are dropped, if there are any. -/
theorem shiftToTargetExponent_eq (m : Nat) (e : Nat) :
    shiftToTargetExponent Format.binary64 m e .exact =
      (ExtendedMantissa.ofMantissaAndAccuracy m .exact >>> (m.log2 - 52),
        ((e + (m.log2 - 52) : Nat) : Int)) := by
  have hcount : (Format.binary64.targetExponent (totalExponent m e) - e).toNat = m.log2 - 52 := by
    rw [targetExponent_eq]
    omega
  rw [shiftToTargetExponent, shiftToExponent, hcount, Nat.cast_add]

theorem ne_zero_of_log2 (h : n.log2 = 52 + count) : n ≠ 0 := by
  rintro rfl
  rw [Nat.log2_zero] at h
  omega

theorem div_of_log2 (h : n.log2 = 52 + count) :
    2 ^ 52 ≤ n / 2 ^ count ∧ n / 2 ^ count < 2 ^ 53 := by
  constructor
  · rw [Nat.le_div_iff_mul_le (Nat.two_pow_pos count), ← Nat.pow_add, ← h]
    exact Nat.log2_self_le (ne_zero_of_log2 h)
  · rw [Nat.div_lt_iff_lt_mul (Nat.two_pow_pos count), ← Nat.pow_add,
      show 53 + count = n.log2 + 1 by omega]
    exact Nat.lt_log2_self

/-- A mantissa that has been rounded up to one more digit is the least one again. -/
theorem carry_eq (hlow : 2 ^ 52 ≤ m) (hhigh : m ≤ 2 ^ 53) :
    (m / 2 ^ (m.log2 - 52)).log2 = 52 ∧ m.log2 - 52 ≤ 1 ∧
      (m.log2 - 52) * 2 ^ 52 + m / 2 ^ (m.log2 - 52) = m := by
  rcases Nat.lt_or_eq_of_le hhigh with hlt | rfl
  · have hlog : m.log2 = 52 := (Nat.log2_eq_iff (by omega)).mpr ⟨hlow, hlt⟩
    simp [hlog]
  · simp only [Nat.log2_two_pow]
    decide

theorem exists_round (h : n.log2 = 52 + count) :
    ∃ (m e : Nat) (hm : 0 < m),
      UnpackedFloat.round Format.binary64 .positive n 0 = .finite .positive m e hm ∧
        m.log2 = 52 ∧ e ≤ count + 1 ∧
        e * 2 ^ 52 + m = count * 2 ^ 52 + Extended.nearest n (2 ^ count) := by
  obtain ⟨hlow, hhigh⟩ := div_of_log2 h
  have hkeep : decreaseExponent n 0 (Format.binary64.targetExponent (totalExponent n 0)) =
      (n, 0) := by
    have hcount : (0 - Format.binary64.targetExponent (totalExponent n 0)).toNat = 0 := by
      rw [targetExponent_eq]
      omega
    simp only [decreaseExponent, hcount, Nat.shiftLeft_zero, Nat.cast_zero, sub_zero]
  have hfirst := shiftToTargetExponent_eq n 0
  rw [h, Nat.add_sub_cancel_left, Nat.zero_add, Nat.cast_zero] at hfirst
  have hrounded := (drops_shiftRight n count).roundedMantissa_eq
  have hnearest := nearest_mem n count
  generalize Extended.nearest n (2 ^ count) = r at hrounded hnearest ⊢
  obtain ⟨hlog, hcarry, hsum⟩ := carry_eq (m := r) (by omega) (by omega)
  have hmantissa := (drops_shiftRight r (r.log2 - 52)).mantissa_eq
  have hsecond := shiftToTargetExponent_eq r count
  generalize ExtendedMantissa.ofMantissaAndAccuracy r .exact >>> (r.log2 - 52) = em
    at hmantissa hsecond
  rw [← hmantissa] at hlog hsum
  have hpos : 0 < em.mantissa := by
    by_contra hz
    rw [Nat.eq_zero_of_not_pos hz] at hlog
    cases hlog
  refine ⟨em.mantissa, count + (r.log2 - 52), hpos, ?_, hlog, by omega, ?_⟩
  · rw [UnpackedFloat.round, hkeep]
    dsimp only
    rw [roundWithAccuracy, hfirst]
    dsimp only
    rw [hrounded, hsecond]
    exact dif_neg hpos.ne'
  · rw [Nat.add_mul, Nat.add_assoc, hsum]

theorem toNat_packComponents (exponent : BitVec 11) (fraction : BitVec 52) :
    (packComponents Format.binary64 .positive exponent fraction).toNat =
      exponent.toNat * 2 ^ 52 + fraction.toNat := by
  have hfront : ((Sign.positive.toBitVec ++ exponent : BitVec 12)).toNat = exponent.toNat := by
    rw [BitVec.toNat_append]
    simp [Sign.toBitVec]
  rw [packComponents, BitVec.toNat_append, hfront,
    ← Nat.shiftLeft_add_eq_or_of_lt fraction.isLt, Nat.shiftLeft_eq]

theorem toNat_pack {e : Nat} (hm : 0 < m) (hlog : m.log2 = 52) (he : e < 900) :
    (UnpackedFloat.pack Format.binary64 (.finite .positive m e hm)).toNat =
      (1074 + e) * 2 ^ 52 + m := by
  obtain ⟨hlow, hhigh⟩ := (Nat.log2_eq_iff hm.ne').mp hlog
  have hpack : UnpackedFloat.pack Format.binary64 (.finite .positive m e hm) =
      if 2 ^ 11 ≤ ((e : Int) + 1023 + 52).toNat + 1 then packedInfinity Format.binary64 .positive
      else if m.log2 + 1 = 53 then
        packComponents Format.binary64 .positive (.ofNat 11 ((e : Int) + 1023 + 52).toNat)
          (.ofNat 52 m)
      else packComponents Format.binary64 .positive 0 (.ofNat 52 m) :=
    rfl
  rw [hpack, if_neg (by omega), if_pos (by omega), toNat_packComponents, BitVec.toNat_ofNat,
    BitVec.toNat_ofNat]
  omega

theorem count_lt {n : UInt64} (h : n.toNat.log2 = 52 + count) : count < 12 := by
  have hlog : n.toNat.log2 < 64 := (Nat.log2_lt (ne_zero_of_log2 h)).mpr n.toNat_lt
  omega

/-- The bits of the double count up with the rounded mantissa, through a carry as well. -/
theorem toNat_toBits_toFloat {n : UInt64} (h : n.toNat.log2 = 52 + count) :
    n.toFloat.toBits.toNat =
      (1074 + count) * 2 ^ 52 + Extended.nearest n.toNat (2 ^ count) := by
  have hn := ne_zero_of_log2 h
  have hcount := count_lt h
  obtain ⟨m, e, hm, hround, hlog, he, hsum⟩ := exists_round h
  have hof : UnpackedFloat.ofUInt64 Format.binary64 n = .finite .positive m e hm := by
    rw [UnpackedFloat.ofUInt64, UnpackedFloat.ofNat, UnpackedFloat.ofInt, UnpackedFloat.normalize,
      Int.compare_eq_gt.mpr (by omega)]
    exact hround
  calc n.toFloat.toBits.toNat
      = (UnpackedFloat.pack Format.binary64 (UnpackedFloat.ofUInt64 Format.binary64 n)).toNat := rfl
    _ = (1074 + e) * 2 ^ 52 + m := by rw [hof, toNat_pack hm hlog (by omega)]
    _ = (1074 + count) * 2 ^ 52 + Extended.nearest n.toNat (2 ^ count) := by
      rw [Nat.add_mul, Nat.add_assoc, hsum, Nat.add_mul, Nat.add_assoc]

end

-- ---------------------------------------------------------------------------
-- Finite doubles
-- ---------------------------------------------------------------------------

theorem toNat_unpackExponent (bits : BitVec 64) :
    (@unpackExponent Format.binary64 bits).toNat = bits.toNat / 2 ^ 52 % 2 ^ 11 := by
  have hextract : (@unpackExponent Format.binary64 bits).toNat =
      (bits.toNat >>> 52) % 2 ^ 11 := rfl
  rw [hextract, Nat.shiftRight_eq_div_pow]

/-- An exponent below the last one, which stands for infinity and for what is no number. -/
theorem isFinite_of_toBits_lt {x : Float} (h : x.toBits.toNat < 2047 * 2 ^ 52) :
    x.isFinite = true := by
  have hexponent : @unpackExponent Format.binary64 x.toBits.toBitVec ≠ -1#11 := by
    intro he
    have hnat := congrArg BitVec.toNat he
    rw [toNat_unpackExponent] at hnat
    have hbits : x.toBits.toBitVec.toNat = x.toBits.toNat := rfl
    have hones : (-1#11 : BitVec 11).toNat = 2047 := rfl
    omega
  show (UnpackedFloat.unpack Format.binary64 x.toBits.toBitVec).isFinite = true
  delta UnpackedFloat.unpack
  dsimp only
  rw [if_neg hexponent]
  by_cases hzero : @unpackExponent Format.binary64 x.toBits.toBitVec = 0#11
  · rw [if_pos hzero]
    by_cases hmantissa : @unpackMantissa Format.binary64 x.toBits.toBitVec = 0#52
    · rw [dif_pos hmantissa]
      rfl
    · rw [dif_neg hmantissa]
      rfl
  · rw [if_neg hzero]
    rfl

theorem isFinite_toFloat {n : UInt64} {count : Nat} (h : n.toNat.log2 = 52 + count) :
    n.toFloat.isFinite = true := by
  have hcount := count_lt h
  obtain ⟨-, hhigh⟩ := div_of_log2 h
  have hnearest := nearest_mem n.toNat count
  apply isFinite_of_toBits_lt
  rw [toNat_toBits_toFloat h]
  omega

-- ---------------------------------------------------------------------------
-- The nearest double
-- ---------------------------------------------------------------------------

/-- The quotient is off by a half at most, and by a half only if it is even. -/
theorem nearest_spec (n : Nat) {bottom : Nat} (h : 0 < bottom) :
    let q := Extended.nearest n bottom
    2 * (q * bottom) ≤ 2 * n + bottom ∧ 2 * n ≤ 2 * (q * bottom) + bottom ∧
      (2 * (q * bottom) = 2 * n + bottom ∨ 2 * n = 2 * (q * bottom) + bottom → q % 2 = 0) := by
  have hdiv := Nat.div_add_mod' n bottom
  have hlt := Nat.mod_lt n h
  simp only [Extended.nearest]
  split
  · next hup =>
    simp only [Bool.or_eq_true, Bool.and_eq_true, decide_eq_true_eq] at hup
    rw [Nat.add_mul, Nat.one_mul]
    omega
  · next hdown =>
    simp only [Bool.or_eq_true, Bool.and_eq_true, decide_eq_true_eq] at hdown
    omega

namespace Double

/-- Whether an integer rounds to a double with whole steps, in whole numbers. -/
theorem rounds_natCast_iff {x : Double} (count : Nat) (h : x.exponent = count) (n : Nat) :
    x.Rounds n ↔
      if x.interval.closed then
        x.interval.low * 2 ^ count ≤ 4 * n ∧ 4 * n ≤ x.interval.high * 2 ^ count
      else x.interval.low * 2 ^ count < 4 * n ∧ 4 * n < x.interval.high * 2 ^ count := by
  have hunit : x.unit = 2 ^ count / 4 := by
    rw [unit, h, zpow_sub₀ two_ne_zero, zpow_natCast]
    norm_num
  have hend (low : Nat) : (low * x.unit : ℚ) = ((low * 2 ^ count : Nat) : ℚ) / 4 := by
    rw [hunit]
    push_cast
    ring
  have hvalue : (n : ℚ) = ((4 * n : Nat) : ℚ) / 4 := by
    push_cast
    ring
  rw [Rounds, Interval.Holds, hend, hend, hvalue]
  simp only [div_le_div_iff_of_pos_right (show (0 : ℚ) < 4 by norm_num),
    div_lt_div_iff_of_pos_right (show (0 : ℚ) < 4 by norm_num), Nat.cast_le, Nat.cast_lt]

/-- The double nearest to an integer, which is not negative. -/
structure IsNearest (x : Double) (n : Nat) : Prop where
  negative_eq : x.negative = false
  rounds : x.Rounds n

theorem isNearest_ofBits {n count : Nat} (h : n.log2 = 52 + count) (hcount : count < 900) :
    (ofBits ((1074 + count) * 2 ^ 52 + Extended.nearest n (2 ^ count))).IsNearest n := by
  obtain ⟨hlow, hhigh⟩ := div_of_log2 h
  have hleast : 2 ^ 52 * 2 ^ count ≤ n := (Nat.le_div_iff_mul_le (Nat.two_pow_pos count)).mp hlow
  have hnearest := nearest_mem n count
  obtain ⟨hbelow, habove, htie⟩ := nearest_spec n (Nat.two_pow_pos count)
  generalize Extended.nearest n (2 ^ count) = q at *
  by_cases hlast : q < 2 ^ 53
  · have hbits : (1074 + count) * 2 ^ 52 + q = (1075 + count) * 2 ^ 52 + (q - 2 ^ 52) := by
      omega
    rw [hbits, ofBits_fields (by omega) (by omega), if_neg (by omega), if_neg (by omega),
      Nat.sub_add_cancel (by omega)]
    refine ⟨rfl, (rounds_natCast_iff count (by dsimp only; omega) _).mpr ?_⟩
    -- where the doubles below lie closer no integer below has so many digits
    have hnarrow (hz : q - 2 ^ 52 = 0) : q * 2 ^ count ≤ n := by
      rwa [show q = 2 ^ 52 by omega]
    simp only [interval, Nat.add_mul, Nat.sub_mul, Nat.mul_assoc, Bool.and_eq_true,
      decide_eq_true_eq]
    generalize q * 2 ^ count = whole at *
    split_ifs <;> omega
  · have hbits : (1074 + count) * 2 ^ 52 + q = (1076 + count) * 2 ^ 52 + 0 := by
      omega
    rw [show q = 2 ^ 53 by omega] at hbelow habove
    rw [hbits, ofBits_fields (by omega) (by omega), if_neg (by omega), if_neg (by omega)]
    refine ⟨rfl, (rounds_natCast_iff (count + 1) (by dsimp only; omega) _).mpr ?_⟩
    simp only [interval, Nat.pow_succ 2 count]
    rw [if_pos (by simp), if_pos (by simp; omega)]
    omega

theorem isNearest_toFloat {n : UInt64} {count : Nat} (h : n.toNat.log2 = 52 + count) :
    (ofFloat n.toFloat).IsNearest n.toNat := by
  have hcount := count_lt h
  rw [ofFloat, toNat_toBits_toFloat h]
  exact isNearest_ofBits h (by omega)

end Double

end Folio.Decimal
