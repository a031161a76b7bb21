import Folio.Proofs.Json.NumberText
import Folio.Proofs.Text.Leading
import Folio.Proofs.Text.Separator
import Mathlib.Algebra.Field.Rat
import Mathlib.Algebra.GroupWithZero.Basic
import Mathlib.Data.List.DropRight
import Mathlib.Tactic.Ring

/-!
# What a written decimal says

A text of digits, with a point among them and a power of ten behind them, says a rational
number. Every form in which digits are written says the value of the digits, so two written
numbers of one text have one sign and one value.
-/

namespace Folio

-- ---------------------------------------------------------------------------
-- Lists of digits
-- ---------------------------------------------------------------------------

namespace Numeral

theorem valueOf_append (digits more : List Char) :
    valueOf (digits ++ more) = valueOf digits * 10 ^ more.length + valueOf more := by
  have happend : valueOf (digits ++ more) = Nat.ofDigitChars 10 more (valueOf digits) :=
    List.foldl_append
  rw [happend, Nat.ofDigitChars_eq_ofDigitChars_zero, Nat.mul_comm]
  rfl

theorem valueOf_zeros (n : Nat) : valueOf (List.replicate n '0') = 0 := by
  show Nat.ofDigitChars 10 (List.replicate n '0') 0 = 0
  simp

theorem valueOf_zeros_append (n : Nat) (digits : List Char) :
    valueOf (List.replicate n '0' ++ digits) = valueOf digits := by
  rw [valueOf_append, valueOf_zeros, Nat.zero_mul, Nat.zero_add]

theorem valueOf_append_zeros (digits : List Char) (n : Nat) :
    valueOf (digits ++ List.replicate n '0') = valueOf digits * 10 ^ n := by
  rw [valueOf_append, valueOf_zeros, List.length_replicate, Nat.add_zero]

end Numeral

namespace Decimal

open Numeral (valueOf valueOf_append valueOf_zeros valueOf_zeros_append valueOf_append_zeros)

/-- At least one digit, and nothing else. -/
structure Digits.Proper (d : Digits) : Prop where
  ne_nil : d.digits ≠ []
  isDigit : ∀ c ∈ d.digits, c.isDigit = true

def Digits.value (d : Digits) : ℚ :=
  valueOf d.digits * 10 ^ (d.exponent + 1 - d.digits.length)

theorem Digits.Proper.trimmed {d : Digits} (h : d.Proper) : d.trimmed.Proper := by
  refine ⟨?_, fun c hc => h.isDigit c (d.trimmed_subset hc)⟩
  unfold Digits.trimmed
  split
  · simpa using h.ne_nil
  · next hne => exact hne

theorem eq_append_zeros (digits : List Char) :
    ∃ n, digits = (digits.reverse.dropWhile (· = '0')).reverse ++ List.replicate n '0' := by
  have hzeros : digits.rtakeWhile (· = '0') =
      List.replicate (digits.rtakeWhile (· = '0')).length '0' :=
    List.eq_replicate_iff.mpr ⟨rfl, fun c hc => by simpa using List.mem_rtakeWhile_imp hc⟩
  have hsplit := List.rdropWhile_append_rtakeWhile (p := (· = '0')) (l := digits)
  rw [hzeros] at hsplit
  exact ⟨_, hsplit.symm⟩

theorem ten_zpow_neg {z : Int} {n : Nat} (h : z = -n) : (10 : ℚ) ^ z = (10 ^ n)⁻¹ := by
  rw [h, zpow_neg, zpow_natCast]

theorem ten_zpow_add {z : Int} (w : Int) {n : Nat} (h : z = w + n) :
    (10 : ℚ) ^ z = 10 ^ w * 10 ^ n := by
  rw [h, zpow_add₀ (by decide), zpow_natCast]

/-- Zeros at the end of the digits are worth nothing. -/
theorem Digits.value_append_zeros (digits : List Char) (n : Nat) (exponent : Int) :
    value ⟨digits ++ List.replicate n '0', exponent⟩ = value ⟨digits, exponent⟩ := by
  have hpower : (10 : ℚ) ^ (exponent + 1 - digits.length) =
      10 ^ (exponent + 1 - (digits ++ List.replicate n '0').length) * 10 ^ n := by
    refine ten_zpow_add _ ?_
    rw [List.length_append, List.length_replicate]
    omega
  simp only [value, valueOf_append_zeros, hpower]
  push_cast
  ring

theorem Digits.value_trimmed (d : Digits) : d.trimmed.value = d.value := by
  obtain ⟨digits, exponent⟩ := d
  obtain ⟨n, hn⟩ := eq_append_zeros digits
  unfold Digits.trimmed
  split
  · next hnil =>
    rw [hnil, List.nil_append] at hn
    simp only [hn, value, List.take_replicate, valueOf_zeros, Nat.cast_zero, zero_mul]
  · exact (value_append_zeros _ n exponent).symm.trans
      (congrArg (fun digits => value ⟨digits, exponent⟩) hn.symm)

theorem Digits.proper_ofSteps (steps : Nat) (last : Int) : (ofSteps steps last).Proper :=
  Digits.Proper.trimmed ⟨Nat.toDigits_ne_nil,
    fun _ hc => Nat.isDigit_of_mem_toDigits (by decide) (by decide) hc⟩

theorem Digits.value_ofSteps (steps : Nat) (last : Int) :
    (ofSteps steps last).value = steps * 10 ^ last := by
  rw [ofSteps, value_trimmed, value, Numeral.valueOf_toDigits]
  have hlast (size : Nat) : last + size - 1 + 1 - size = last := by omega
  rw [hlast]

-- ---------------------------------------------------------------------------
-- Texts
-- ---------------------------------------------------------------------------

/-- The value of digits with a point among them. -/
def fixedValue (text : List Char) : ℚ :=
  let whole := text.takeWhile (· ≠ '.')
  let fraction := (text.dropWhile (· ≠ '.')).drop 1
  valueOf (whole ++ fraction) / 10 ^ fraction.length

/-- The value of a text without a sign in front. -/
def textValue (text : List Char) : ℚ :=
  let significand := fixedValue (text.takeWhile (· ≠ 'e'))
  match (text.dropWhile (· ≠ 'e')).drop 1 with
  | [] => significand
  | sign :: power =>
    if sign = '-' then significand / 10 ^ valueOf power else significand * 10 ^ valueOf power

section
open Text (ne_of_notMem takeWhile_ne dropWhile_ne)

variable {text whole significand : List Char}

theorem fixedValue_point (h : '.' ∉ whole) (fraction : List Char) :
    fixedValue (whole ++ '.' :: fraction) =
      valueOf (whole ++ fraction) / 10 ^ fraction.length := by
  simp only [fixedValue, takeWhile_ne h, dropWhile_ne h, List.drop_one, List.tail_cons]

theorem fixedValue_whole (h : '.' ∉ whole) : fixedValue whole = valueOf whole := by
  simp only [fixedValue, List.takeWhile_eq_self_iff.mpr (ne_of_notMem h),
    List.dropWhile_eq_nil_iff.mpr (ne_of_notMem h), List.drop_nil, List.append_nil,
    List.length_nil, pow_zero, div_one]

theorem textValue_fixed (h : 'e' ∉ text) : textValue text = fixedValue text := by
  simp only [textValue, List.takeWhile_eq_self_iff.mpr (ne_of_notMem h),
    List.dropWhile_eq_nil_iff.mpr (ne_of_notMem h), List.drop_nil]

theorem textValue_power (h : 'e' ∉ significand) (sign : Char) (power : List Char) :
    textValue (significand ++ 'e' :: sign :: power) =
      if sign = '-' then fixedValue significand / 10 ^ valueOf power
      else fixedValue significand * 10 ^ valueOf power := by
  simp only [textValue, takeWhile_ne h, dropWhile_ne h, List.drop_one, List.tail_cons]

end

-- ---------------------------------------------------------------------------
-- Written digits
-- ---------------------------------------------------------------------------

theorem notMem_of_isDigit {digits : List Char} (h : ∀ c ∈ digits, c.isDigit = true) {c : Char}
    (hc : c.isDigit = false) : c ∉ digits := by
  intro hm
  rw [h c hm] at hc
  cases hc

theorem isDigit_zeros (n : Nat) : ∀ c ∈ List.replicate n '0', c.isDigit = true := by
  intro c hc
  rw [List.eq_of_mem_replicate hc]
  decide

theorem fixedValue_zeros (zeros : Nat) (digits : List Char) :
    fixedValue (['0', '.'] ++ List.replicate zeros '0' ++ digits) =
      valueOf digits / 10 ^ (zeros + digits.length) := by
  have hfraction : '0' :: (List.replicate zeros '0' ++ digits) =
      List.replicate (zeros + 1) '0' ++ digits := rfl
  show fixedValue (['0'] ++ '.' :: (List.replicate zeros '0' ++ digits)) = _
  rw [fixedValue_point (by decide), List.singleton_append, hfraction, valueOf_zeros_append,
    List.length_append, List.length_replicate]

section
variable {digits : List Char} (h : ∀ c ∈ digits, c.isDigit = true)
include h

theorem fixedValue_whole_zeros (zeros : Nat) :
    fixedValue (digits ++ List.replicate zeros '0' ++ ['.', '0']) =
      valueOf digits * 10 ^ zeros := by
  have hwhole : '.' ∉ digits ++ List.replicate zeros '0' :=
    notMem_of_isDigit (List.forall_mem_append.mpr ⟨h, isDigit_zeros zeros⟩) rfl
  have hdigits : digits ++ List.replicate zeros '0' ++ ['0'] =
      digits ++ List.replicate (zeros + 1) '0' := by
    rw [List.replicate_succ', List.append_assoc]
  rw [fixedValue_point hwhole, hdigits, valueOf_append_zeros, List.length_singleton]
  push_cast
  ring

theorem fixedValue_split (whole : Nat) :
    fixedValue (digits.take whole ++ '.' :: digits.drop whole) =
      valueOf digits / 10 ^ (digits.length - whole) := by
  have hwhole : '.' ∉ digits.take whole :=
    notMem_of_isDigit (fun c hc => h c (List.mem_of_mem_take hc)) rfl
  rw [fixedValue_point hwhole, List.take_append_drop, List.length_drop]

theorem fixedValue_plain (exponent : Int) :
    fixedValue (plain digits exponent) = Digits.value ⟨digits, exponent⟩ := by
  simp only [plain, Digits.value]
  split
  · rw [fixedValue_zeros, ten_zpow_neg, div_eq_mul_inv]
    omega
  · split
    · next hnil =>
      have hlength := List.drop_eq_nil_iff.mp (List.isEmpty_iff.mp hnil)
      rw [List.take_of_length_le hlength, fixedValue_whole_zeros h]
      congr 1
      rw [← zpow_natCast]
      congr 1
      omega
    · next hcons =>
      have hlength := List.length_lt_of_drop_ne_nil fun hnil => hcons (List.isEmpty_iff.mpr hnil)
      rw [Nat.sub_eq_zero_of_le hlength.le, List.replicate_zero, List.append_nil,
        fixedValue_split h, ten_zpow_neg, div_eq_mul_inv]
      omega

theorem textValue_plain (exponent : Int) :
    textValue (plain digits exponent) = Digits.value ⟨digits, exponent⟩ := by
  have hdigits : 'e' ∉ digits := notMem_of_isDigit h rfl
  have hpower : ∀ c ∈ plain digits exponent, c ≠ 'e' :=
    forall_mem_plain (fun c hc => ne_of_mem_of_not_mem hc hdigits) (by simp) (by simp) exponent
  rw [textValue_fixed fun hm => hpower _ hm rfl, fixedValue_plain h]

/-- The digits, with a point behind the first of them, stand before the power of ten. -/
theorem Layout.exponential_eq (layout : Layout) (exponent : Int) :
    ∃ significand zeros, layout.exponential digits exponent =
        significand ++ 'e' :: (if exponent < 0 then '-' else '+') ::
          (List.replicate zeros '0' ++ Nat.toDigits 10 exponent.natAbs) ∧
      'e' ∉ significand ∧ fixedValue significand = valueOf digits / 10 ^ (digits.length - 1) := by
  have hexponential (significand : List Char) (sign : Char) (zeros : Nat) (size : List Char) :
      significand ++ ['e', sign] ++ List.replicate zeros '0' ++ size =
        significand ++ 'e' :: sign :: (List.replicate zeros '0' ++ size) := by
    simp
  have hfirst : 'e' ∉ digits.take 1 :=
    notMem_of_isDigit (fun c hc => h c (List.mem_of_mem_take hc)) rfl
  have hmore : 'e' ∉ digits.drop 1 :=
    notMem_of_isDigit (fun c hc => h c (List.mem_of_mem_drop hc)) rfl
  refine ⟨_, _, hexponential _ _ _ _, ?_, ?_⟩
  · split
    · split <;> simp [hfirst]
    · exact List.not_mem_append hfirst (List.not_mem_cons_of_ne_of_not_mem (by decide) hmore)
  · split
    · next hnil =>
      have hlength := List.drop_eq_nil_iff.mp hnil
      rw [List.take_of_length_le hlength, Nat.sub_eq_zero_of_le hlength, pow_zero, div_one]
      split
      · have hpoint := fixedValue_whole_zeros h 0
        rwa [List.replicate_zero, List.append_nil, pow_zero, mul_one] at hpoint
      · rw [List.append_nil, fixedValue_whole (notMem_of_isDigit h rfl)]
    · next hd =>
      rw [fixedValue_split h]

theorem Layout.textValue_exponential (layout : Layout) (hn : digits ≠ []) (exponent : Int) :
    textValue (layout.exponential digits exponent) = Digits.value ⟨digits, exponent⟩ := by
  obtain ⟨significand, zeros, heq, hpower, hvalue⟩ := layout.exponential_eq h exponent
  have hlength := List.length_pos_iff.mpr hn
  rw [heq, textValue_power hpower, hvalue, valueOf_zeros_append, Numeral.valueOf_toDigits]
  simp only [Digits.value]
  by_cases hneg : exponent < 0
  · rw [if_pos hneg, if_pos rfl, div_div, ← pow_add, ten_zpow_neg, div_eq_mul_inv]
    omega
  · have hsize : exponent = (exponent.natAbs : Int) := by omega
    have hdown : (10 : ℚ) ^ (1 - digits.length : Int) = (10 ^ (digits.length - 1))⁻¹ :=
      ten_zpow_neg (by omega)
    have hpower : (10 : ℚ) ^ (exponent + 1 - digits.length) =
        10 ^ (1 - digits.length : Int) * 10 ^ exponent.natAbs := ten_zpow_add _ (by omega)
    rw [if_neg hneg, if_neg (by decide), hpower, hdown, div_eq_mul_inv, mul_assoc]

end

section
variable {d other : Digits} (layout : Layout)

theorem Layout.write_false (d : Digits) :
    layout.write false d = plain d.digits d.exponent ∨
      layout.write false d = layout.exponential d.digits d.exponent :=
  ite_eq_or_eq _ _ _

theorem Layout.point_or_power_mem_write (negative : Bool) (d : Digits) :
    '.' ∈ layout.write negative d ∨ 'e' ∈ layout.write negative d := by
  have hbody : '.' ∈ layout.write false d ∨ 'e' ∈ layout.write false d := by
    rcases layout.write_false d with hw | hw
    · rw [hw, plain]
      split <;> simp
    · simp [hw, exponential]
  cases negative with
  | false => exact hbody
  | true => exact hbody.imp (List.mem_cons_of_mem '-') (List.mem_cons_of_mem '-')

theorem Digits.Proper.textValue_write (h : d.Proper) :
    textValue (layout.write false d) = d.value := by
  rcases layout.write_false d with hw | hw
  · rw [hw, textValue_plain h.isDigit d.exponent]
  · rw [hw, layout.textValue_exponential h.isDigit h.ne_nil d.exponent]

theorem Digits.Proper.write_eq_cons (h : d.Proper) :
    ∃ c rest, layout.write false d = c :: rest ∧ c.isDigit = true := by
  obtain ⟨digits, exponent⟩ := d
  obtain ⟨c, more, rfl⟩ := List.exists_cons_of_ne_nil h.ne_nil
  have hc : c.isDigit = true := h.isDigit c List.mem_cons_self
  rcases layout.write_false ⟨c :: more, exponent⟩ with hw | hw
  · rw [hw, plain]
    split
    · exact ⟨'0', _, rfl, rfl⟩
    · exact ⟨c, _, rfl, hc⟩
  · exact ⟨c, _, hw, hc⟩

/-- One text is written for one sign and one value only. -/
theorem Layout.eq_of_write_eq {negative negated : Bool} (hd : d.Proper) (ho : other.Proper)
    (h : layout.write negative d = layout.write negated other) :
    negative = negated ∧ d.value = other.value := by
  obtain ⟨c, rest, hc, hdigit⟩ := hd.write_eq_cons layout
  obtain ⟨c', rest', hc', hdigit'⟩ := ho.write_eq_cons layout
  have hminus : ∀ c : Char, c.isDigit = true → '-' ≠ c := by
    rintro c hc rfl
    cases hc
  have hvalue (h : layout.write false d = layout.write false other) : d.value = other.value := by
    rw [← hd.textValue_write layout, h, ho.textValue_write layout]
  cases negative <;> cases negated
  case false.false => exact ⟨rfl, hvalue h⟩
  case true.true => exact ⟨rfl, hvalue (List.cons.inj h).2⟩
  -- a sign is no digit
  case false.true =>
    rw [hc] at h
    exact absurd (List.cons.inj h).1.symm (hminus c hdigit)
  case true.false =>
    rw [hc'] at h
    exact absurd (List.cons.inj h).1 (hminus c' hdigit')

end

end Decimal

end Folio
