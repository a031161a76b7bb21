import Folio.Proofs.Attempt
import Folio.Proofs.Text.Leading

/-!
# Integers that take a whole text

The strict reader takes a text that is an integer from end to end, with nothing around it. It
stops at the first digit that takes the number past its bound, and yet accepts just the
integers of its range: a number only grows by the digits that follow.
-/

namespace Folio.Numeral

/-- A text that is an integer from end to end: at most one sign, and at least one digit. -/
structure Whole (text : List Char) where
  sign : Sign
  digits : List Char
  text_eq : text = sign.chars ++ digits
  isDigit : ∀ c ∈ digits, c.isDigit = true
  ne_nil : digits ≠ []

def Whole.value {text : List Char} (whole : Whole text) : Int :=
  whole.sign.apply (valueOf whole.digits)

/-- The integer lies between two bounds. Where there are no negative numbers, there is no
minus sign either. -/
structure Whole.Within {text : List Char} (whole : Whole text) (low high : Int) : Prop where
  signed : whole.sign = .minus → low < 0
  low_le : low ≤ whole.value
  le_high : whole.value ≤ high

/-- A number does not get smaller by the digits behind it. -/
theorem le_ofDigitChars (value : Nat) (digits : List Char) :
    value ≤ Nat.ofDigitChars 10 digits value := by
  rw [Nat.ofDigitChars_eq_ofDigitChars_zero]
  exact Nat.le_add_right_of_le (Nat.le_mul_of_pos_left value (Nat.pow_pos (by decide)))

section
variable {bound n : Nat} {past : Fault} {digits : List Char}

/-- The numbers on the way are no larger than the last one, so the bound is exact. -/
theorem readDigits_eq_ok_iff {value : Nat} (hv : value ≤ bound) :
    readDigits bound past value digits = .ok n ↔
      (∀ c ∈ digits, c.isDigit = true) ∧ Nat.ofDigitChars 10 digits value = n ∧ n ≤ bound := by
  induction digits generalizing value with
  | nil =>
    rw [readDigits, Except.ok.injEq, Nat.ofDigitChars_nil]
    constructor
    · rintro rfl
      exact ⟨List.forall_mem_nil _, rfl, hv⟩
    · rintro ⟨-, hn, -⟩
      exact hn
  | cons c digits ih =>
    have hstep : Nat.ofDigitChars 10 (c :: digits) value =
        Nat.ofDigitChars 10 digits (10 * value + digitValue c) := Nat.ofDigitChars_cons
    have hle := le_ofDigitChars (10 * value + digitValue c) digits
    rw [readDigits, List.forall_mem_cons, hstep]
    cases hc : c.isDigit with
    | false => simp
    | true =>
      by_cases hb : bound < 10 * value + digitValue c
      · simp only [Bool.not_true, Bool.false_eq_true, if_false, if_pos hb, reduceCtorEq, false_iff]
        rintro ⟨-, rfl, hn⟩
        omega
      · simp only [Bool.not_true, Bool.false_eq_true, if_false, if_neg hb, true_and]
        exact ih (Nat.le_of_not_lt hb)

theorem readMagnitude_eq_ok_iff :
    readMagnitude bound past digits = .ok n ↔
      digits ≠ [] ∧ (∀ c ∈ digits, c.isDigit = true) ∧ valueOf digits = n ∧ n ≤ bound := by
  unfold readMagnitude
  cases digits with
  | nil => simp
  | cons c digits =>
    simp only [List.isEmpty_cons, Bool.false_eq_true, if_false, ne_eq, reduceCtorEq,
      not_false_eq_true, true_and]
    exact readDigits_eq_ok_iff (Nat.zero_le bound)

end

namespace Range

variable {range : Range} {text : List Char}

/-- The size of the largest number with a sign. -/
def size (range : Range) : Sign → Nat
  | .minus => range.below
  | _ => range.above

theorem within_iff {whole : Whole text} :
    whole.Within (-range.below) range.above ↔
      (whole.sign = .minus → range.below ≠ 0) ∧ valueOf whole.digits ≤ range.size whole.sign := by
  constructor
  · rintro ⟨hs, hl, hh⟩
    refine ⟨fun hm => by have := hs hm; omega, ?_⟩
    simp only [Whole.value] at hl hh
    cases hsign : whole.sign <;> simp only [hsign, Sign.apply] at hl hh <;> simp only [size] <;>
      omega
  · rintro ⟨hs, hv⟩
    refine ⟨fun hm => by have := hs hm; omega, ?_, ?_⟩ <;> simp only [Whole.value] <;>
      cases hsign : whole.sign <;> simp only [hsign, size] at hv <;> simp only [Sign.apply] <;>
      omega

/-- A text that starts with a digit has no sign. -/
theorem read_digits (range : Range) {digits : List Char} (hd : ∀ c ∈ digits, c.isDigit = true)
    (hne : digits ≠ []) :
    range.read digits = (readMagnitude range.above .tooLarge digits).map Int.ofNat := by
  obtain ⟨d, rest, rfl⟩ := List.exists_cons_of_ne_nil hne
  have hdigit : d.isDigit = true := hd d List.mem_cons_self
  rw [read]
  · rintro ⟨⟩
  · rintro rest ⟨⟩
    cases hdigit
  · rintro rest ⟨⟩
    cases hdigit

/-- The strict reader accepts the integers of its range, and nothing else. -/
theorem read_eq_ok_iff {n : Int} :
    range.read text = .ok n ↔
      ∃ whole : Whole text, whole.Within (-range.below) range.above ∧ whole.value = n := by
  constructor
  · intro h
    unfold read at h
    split at h
    · cases h
    · obtain ⟨m, hm, rfl⟩ := Attempt.map_ok.mp h
      obtain ⟨hne, hd, rfl, hb⟩ := readMagnitude_eq_ok_iff.mp hm
      exact ⟨⟨.plus, _, rfl, hd, hne⟩, within_iff.mpr ⟨nofun, hb⟩, rfl⟩
    · split at h
      · cases h
      · rename_i hbelow
        obtain ⟨m, hm, rfl⟩ := Attempt.map_ok.mp h
        obtain ⟨hne, hd, rfl, hb⟩ := readMagnitude_eq_ok_iff.mp hm
        exact ⟨⟨.minus, _, rfl, hd, hne⟩, within_iff.mpr ⟨fun _ => hbelow, hb⟩, rfl⟩
    · obtain ⟨m, hm, rfl⟩ := Attempt.map_ok.mp h
      obtain ⟨hne, hd, rfl, hb⟩ := readMagnitude_eq_ok_iff.mp hm
      exact ⟨⟨.absent, _, rfl, hd, hne⟩, within_iff.mpr ⟨nofun, hb⟩, rfl⟩
  · rintro ⟨⟨sign, digits, rfl, hd, hne⟩, hw, rfl⟩
    obtain ⟨hs, hv⟩ := within_iff.mp hw
    have hread (past : Fault) :
        readMagnitude (range.size sign) past digits = .ok (valueOf digits) :=
      readMagnitude_eq_ok_iff.mpr ⟨hne, hd, rfl, hv⟩
    cases sign with
    | absent => exact (read_digits range hd hne).trans (congrArg _ (hread _))
    | plus =>
      show (readMagnitude range.above .tooLarge digits).map Int.ofNat = _
      exact congrArg _ (hread _)
    | minus =>
      show (if range.below = 0 then _ else (readMagnitude range.below .tooSmall digits).map _) = _
      rw [if_neg (hs rfl)]
      exact congrArg _ (hread _)

end Range

end Folio.Numeral
