import Folio.Numeral
import Folio.Text.Blank
import Mathlib.Data.List.TakeWhile

/-!
# Integers at the start of a text

The lenient reader sees white space, a sign and digits, and nothing behind the digits. It
gives the integer that they write as long as its size stays within the bound.
-/

namespace Folio.Numeral

inductive Sign where
  | absent
  | plus
  | minus
  deriving DecidableEq, Repr

def Sign.chars : Sign → List Char
  | .absent => []
  | .plus => ['+']
  | .minus => ['-']

def Sign.apply : Sign → Nat → Int
  | .minus, n => -n
  | _, n => n

/-- A text that starts with an integer: what stands in front of its digits, all the digits,
and what follows them. -/
structure Leading (text : List Char) where
  blanks : List Char
  sign : Sign
  digits : List Char
  rest : List Char
  text_eq : text = blanks ++ (sign.chars ++ (digits ++ rest))
  isBlank : ∀ c ∈ blanks, Text.isBlank c = true
  isDigit : ∀ c ∈ digits, c.isDigit = true
  ne_nil : digits ≠ []
  stops : ∀ c ∈ rest.head?, c.isDigit = false

def Leading.value {text : List Char} (n : Leading text) : Int :=
  n.sign.apply (valueOf n.digits)

theorem natAbs_apply (sign : Sign) (n : Nat) : (sign.apply n).natAbs = n := by
  cases sign <;> simp [Sign.apply]

theorem isBlank_of_isDigit {c : Char} (h : c.isDigit = true) : Text.isBlank c = false := by
  have hrange : 48 ≤ c.toNat ∧ c.toNat ≤ 57 := by
    simpa [Char.isDigit, UInt32.le_iff_toNat_le] using h
  simp only [Text.isBlank, Text.blankRanges, List.any_eq_false]
  intro range hr
  simp only [List.mem_cons, List.not_mem_nil, or_false] at hr
  rcases hr with rfl | rfl | rfl | rfl | rfl | rfl | rfl | rfl | rfl | rfl <;> simp <;> omega

theorem takeWhile_digits {digits rest : List Char} (hd : ∀ c ∈ digits, c.isDigit = true)
    (hr : ∀ c ∈ rest.head?, c.isDigit = false) :
    (digits ++ rest).takeWhile Char.isDigit = digits := by
  rw [List.takeWhile_append_of_pos hd]
  cases rest with
  | nil => simp
  | cons c rest => simp [hr c rfl]

theorem magnitude_digits (bound : Nat) {digits rest : List Char}
    (hd : ∀ c ∈ digits, c.isDigit = true) (hn : digits ≠ [])
    (hr : ∀ c ∈ rest.head?, c.isDigit = false) :
    leading.magnitude bound (digits ++ rest) =
      if valueOf digits ≤ bound then some (valueOf digits) else none := by
  simp only [leading.magnitude, takeWhile_digits hd hr]
  by_cases hb : valueOf digits ≤ bound
  · simp [hn, hb]
  · simp [hn, hb]

variable {text : List Char}

theorem Leading.trimStart_eq (n : Leading text) :
    Text.trimStart text = n.sign.chars ++ (n.digits ++ n.rest) := by
  obtain ⟨d, digits, hd⟩ := List.exists_cons_of_ne_nil n.ne_nil
  have hblank : Text.isBlank d = false := isBlank_of_isDigit (n.isDigit d (by simp [hd]))
  refine (congrArg Text.trimStart n.text_eq).trans ?_
  rw [Text.trimStart, List.dropWhile_append_of_pos n.isBlank]
  cases n.sign with
  | absent => simp [Sign.chars, hd, hblank]
  | plus => rfl
  | minus => rfl

theorem Leading.leading_eq (n : Leading text) (bound : Nat) :
    leading bound (Text.trimStart text) =
      if n.value.natAbs ≤ bound then some n.value else none := by
  rw [n.trimStart_eq, value, natAbs_apply]
  have hm := magnitude_digits bound n.isDigit n.ne_nil n.stops
  cases n.sign with
  | plus | minus =>
    show (leading.magnitude bound (n.digits ++ n.rest)).map _ = _
    rw [hm]
    split <;> rfl
  | absent =>
    obtain ⟨d, digits, hd⟩ := List.exists_cons_of_ne_nil n.ne_nil
    have hdigit : d.isDigit = true := n.isDigit d (by simp [hd])
    have hread : leading bound (n.digits ++ n.rest) =
        (leading.magnitude bound (n.digits ++ n.rest)).map Int.ofNat := by
      rw [hd, List.cons_append, leading]
      · rintro rest ⟨⟩
        cases hdigit
      · rintro rest ⟨⟩
        cases hdigit
    rw [Sign.chars, List.nil_append, hread, hm]
    split <;> rfl

theorem valueOf_toDigits (n : Nat) : valueOf (Nat.toDigits 10 n) = n :=
  Nat.ofDigitChars_toDigits (by decide) (by decide)

/-- The digits of a number and nothing else. -/
def Leading.ofNat (n : Nat) : Leading (Nat.toDigits 10 n) where
  blanks := []
  sign := .absent
  digits := Nat.toDigits 10 n
  rest := []
  text_eq := by simp [Sign.chars]
  isBlank := by simp
  isDigit _ hc := Nat.isDigit_of_mem_toDigits (by decide) (by decide) hc
  ne_nil := Nat.toDigits_ne_nil
  stops := by simp

end Folio.Numeral
