import Folio.Json.Number
import Folio.Proofs.Text.Bounded
import Folio.Proofs.Text.Offsets
import Folio.Query.Parameters
import Mathlib.Algebra.Group.Nat.Defs

/-!
# The lenient reader is exact

An integer at the start of a text is given just when it has digits and a size that 63 bits hold,
however long the digits are. A reader that finds the end of the digits as a byte offset, and
turns their value around in 64 bits, never fails and gives the same.
-/

namespace Folio.Numeral

/-- The sign at the start of a text, and what follows it. -/
def splitSign : List Char → Sign × List Char
  | '-' :: rest => (.minus, rest)
  | '+' :: rest => (.plus, rest)
  | rest => (.absent, rest)

theorem eq_splitSign (text : List Char) :
    text = (splitSign text).1.chars ++ (splitSign text).2 := by
  fun_cases splitSign text <;> rfl

theorem leading_eq_splitSign (bound : Nat) (text : List Char) :
    leading bound text =
      (leading.magnitude bound (splitSign text).2).map (splitSign text).1.apply := by
  fun_cases splitSign text with
  | case1 rest => rfl
  | case2 rest => rfl
  | case3 text hminus hplus =>
    rw [leading]
    · rfl
    · exact hminus
    · exact hplus

section
variable {bound m : Nat} {text : List Char} {n : Int}

theorem magnitude_eq_some_iff :
    leading.magnitude bound text = some m ↔
      text.takeWhile Char.isDigit ≠ [] ∧ valueOf (text.takeWhile Char.isDigit) = m ∧
        m ≤ bound := by
  simp only [leading.magnitude]
  split <;> grind

/-- What stands in front of the first character that is no digit is all digits. -/
def Leading.ofSplit (text : List Char)
    (hne : (splitSign (Text.trimStart text)).2.takeWhile Char.isDigit ≠ []) : Leading text where
  blanks := text.takeWhile Text.isBlank
  sign := (splitSign (Text.trimStart text)).1
  digits := (splitSign (Text.trimStart text)).2.takeWhile Char.isDigit
  rest := (splitSign (Text.trimStart text)).2.dropWhile Char.isDigit
  text_eq := by
    rw [List.takeWhile_append_dropWhile, ← eq_splitSign]
    exact List.takeWhile_append_dropWhile.symm
  isBlank _ hc := List.mem_takeWhile_imp hc
  isDigit _ hc := List.mem_takeWhile_imp hc
  ne_nil := hne
  stops c hc := by
    have h := List.head?_dropWhile_not Char.isDigit (splitSign (Text.trimStart text)).2
    rw [hc] at h
    exact h

/-- The lenient reader gives just the integers that a text starts with and the bound allows. -/
theorem leading_eq_some_iff :
    leading bound (Text.trimStart text) = some n ↔
      ∃ start : Leading text, start.value = n ∧ n.natAbs ≤ bound := by
  constructor
  · intro h
    rw [leading_eq_splitSign] at h
    obtain ⟨m, hm, rfl⟩ := Option.map_eq_some_iff.mp h
    obtain ⟨hne, rfl, hb⟩ := magnitude_eq_some_iff.mp hm
    refine ⟨.ofSplit text hne, rfl, ?_⟩
    rwa [natAbs_apply]
  · rintro ⟨start, rfl, hb⟩
    rw [start.leading_eq, if_pos hb]

end

-- ---------------------------------------------------------------------------
-- Reading by offsets
-- ---------------------------------------------------------------------------

instance (range : Range) (n : Int) : Decidable (range.Contains n) :=
  inferInstanceAs (Decidable (_ ∧ _))

/-- The negative of an integer, if the range has it. -/
def Range.negate (range : Range) (n : Int) : Except Text.Crash Int :=
  if range.Contains (-n) then .ok (-n) else .error .overflow

/-- Reads the integer that a text starts with. The end of its digits is the offset of the first
character that is no digit, and the sign is applied to their value last. -/
def Range.readLeading (range : Range) (text : List Char) : Except Text.Crash (Option Int) := do
  let (sign, unsigned) := splitSign (Text.trimStart text)
  let (digits, _) ← Text.cutAt (Text.offsetOf (!·.isDigit) unsigned) unsigned
  match range.read digits with
  | .error _ => return none
  | .ok n =>
    match sign with
    | .minus => some <$> range.negate n
    | _ => return some n

/-- A run of digits is read strictly and leniently alike. -/
theorem toOption_readMagnitude (bound : Nat) (past : Fault) (text : List Char) :
    (readMagnitude bound past (text.takeWhile Char.isDigit)).toOption =
      leading.magnitude bound text := by
  have hd : ∀ c ∈ text.takeWhile Char.isDigit, c.isDigit = true :=
    fun _ hc => List.mem_takeWhile_imp hc
  have heq (m : Nat) : readMagnitude bound past (text.takeWhile Char.isDigit) = .ok m ↔
      leading.magnitude bound text = some m := by
    rw [readMagnitude_eq_ok_iff, magnitude_eq_some_iff]
    exact ⟨fun ⟨hne, _, hm⟩ => ⟨hne, hm⟩, fun ⟨hne, hm⟩ => ⟨hne, hd, hm⟩⟩
  cases hr : readMagnitude bound past (text.takeWhile Char.isDigit) with
  | ok m => exact ((heq m).mp hr).symm
  | error fault =>
    cases hm : leading.magnitude bound text with
    | none => rfl
    | some m =>
      rw [(heq m).mpr hm] at hr
      cases hr

theorem Range.toOption_read (range : Range) (text : List Char) :
    (range.read (text.takeWhile Char.isDigit)).toOption =
      (leading.magnitude range.above text).map Int.ofNat := by
  have hd : ∀ c ∈ text.takeWhile Char.isDigit, c.isDigit = true :=
    fun _ hc => List.mem_takeWhile_imp hc
  rw [← toOption_readMagnitude range.above .tooLarge text]
  rcases eq_or_ne (text.takeWhile Char.isDigit) [] with hnil | hne
  · rw [hnil]
    rfl
  · rw [range.read_digits hd hne]
    cases readMagnitude range.above .tooLarge (text.takeWhile Char.isDigit) <;> rfl

/-- The offset is where the digits end. -/
theorem cutAt_digits (text : List Char) :
    Text.cutAt (Text.offsetOf (!·.isDigit) text) text =
      .ok (text.takeWhile Char.isDigit, text.dropWhile Char.isDigit) := by
  rw [Text.offsetOf_not]
  exact Text.cutAt_eq_ok_iff.mpr ⟨List.takeWhile_append_dropWhile.symm, rfl⟩

/-- In a range with at least as many numbers below zero as above it nothing goes wrong: the end
of the digits is a place in the text, and the negative of each number is in the range. -/
theorem Range.readLeading_eq {range : Range} (h : range.above ≤ range.below) (text : List Char) :
    range.readLeading text = .ok (leading range.above (Text.trimStart text)) := by
  rw [leading_eq_splitSign, readLeading]
  generalize splitSign (Text.trimStart text) = parts
  obtain ⟨sign, unsigned⟩ := parts
  have hread := range.toOption_read unsigned
  simp only [cutAt_digits, bind, Except.bind]
  cases hr : range.read (unsigned.takeWhile Char.isDigit) with
  | error fault =>
    rw [hr] at hread
    rw [Option.map_eq_none_iff.mp hread.symm]
    rfl
  | ok n =>
    rw [hr] at hread
    obtain ⟨m, hm, rfl⟩ := Option.map_eq_some_iff.mp hread.symm
    obtain ⟨-, -, hb⟩ := magnitude_eq_some_iff.mp hm
    rw [hm]
    cases sign with
    | absent | plus => rfl
    | minus =>
      have hnegative : range.Contains (-Int.ofNat m) := by
        simp only [Contains, Int.ofNat_eq_natCast]
        omega
      simp only [negate, if_pos hnegative]
      rfl

-- ---------------------------------------------------------------------------
-- Written integers
-- ---------------------------------------------------------------------------

/-- A written integer, and what follows its digits. -/
def Leading.ofInt (n : Int) {rest : List Char} (hr : ∀ c ∈ rest.head?, c.isDigit = false) :
    Leading (Number.intText n ++ rest) where
  __ := Leading.ofNat n.natAbs
  sign := if n < 0 then .minus else .absent
  rest := rest
  text_eq := by
    unfold Number.intText
    split <;> rfl
  stops := hr

theorem Leading.value_ofInt (n : Int) {rest : List Char}
    (hr : ∀ c ∈ rest.head?, c.isDigit = false) : (Leading.ofInt n hr).value = n := by
  have hdigits : valueOf (Leading.ofInt n hr).digits = n.natAbs := valueOf_toDigits _
  rw [value, hdigits]
  simp only [ofInt]
  split
  · simp only [Sign.apply]
    omega
  · simp only [Sign.apply]
    omega

theorem toList_toString (n : Int) : (toString n).toList = Number.intText n := by
  rw [Int.toString_eq_repr, Int.repr_eq_if, Number.intText]
  rcases Int.lt_or_le n 0 with hn | hn
  · have hsize : (-n).toNat = n.natAbs := by omega
    rw [if_neg (Int.not_le.mpr hn), if_pos hn, String.toList_append, Nat.toList_repr, hsize]
    rfl
  · have hsize : n.toNat = n.natAbs := by omega
    rw [if_pos hn, if_neg (Int.not_lt.mpr hn), Nat.toList_repr, hsize]

end Folio.Numeral

namespace Folio.Query

open Numeral (Leading)

/-- A text gives the integer that it starts with, behind white space, just when the digits are
there and their value, of whatever length they are, is at most the largest integer of 64 bits.
Reading by byte offsets never fails and gives the same. A written integer is read back with
whatever follows its digits. -/
theorem leadingInteger?_is_exact :
    (∀ text : String,
      (∀ n, leadingInteger? text = some n ↔
        ∃ start : Leading text.toList, start.value = n ∧ n.natAbs ≤ 2 ^ 63 - 1) ∧
      (Numeral.Range.signed 64).readLeading text.toList = .ok (leadingInteger? text)) ∧
    ∀ (n : Int) (rest : String), n.natAbs ≤ 2 ^ 63 - 1 →
      (∀ c ∈ rest.toList.head?, c.isDigit = false) →
        leadingInteger? (toString n ++ rest) = some n := by
  have hexact (text : String) (n : Int) : leadingInteger? text = some n ↔
      ∃ start : Leading text.toList, start.value = n ∧ n.natAbs ≤ 2 ^ 63 - 1 :=
    Numeral.leading_eq_some_iff
  refine ⟨fun text => ⟨hexact text, Numeral.Range.readLeading_eq (by decide) _⟩, ?_⟩
  intro n rest hn hr
  have htext : (toString n ++ rest).toList = Number.intText n ++ rest.toList := by
    rw [String.toList_append, Numeral.toList_toString]
  rw [hexact, htext]
  exact ⟨.ofInt n hr, Leading.value_ofInt n hr, hn⟩

/-- The least integer that is read, and a character of two bytes behind it. -/
theorem leastInteger_is_read_back :
    (-9223372036854775807 : Int).natAbs ≤ 2 ^ 63 - 1 ∧
      (∀ c ∈ "é".toList.head?, c.isDigit = false) ∧
        leadingInteger? (toString (-9223372036854775807 : Int) ++ "é") =
          some (-9223372036854775807) := by
  have hn : (-9223372036854775807 : Int).natAbs ≤ 2 ^ 63 - 1 := by decide
  have hr : ∀ c ∈ "é".toList.head?, c.isDigit = false := by
    rintro c ⟨⟩
    rfl
  exact ⟨hn, hr, leadingInteger?_is_exact.2 _ _ hn hr⟩

end Folio.Query
