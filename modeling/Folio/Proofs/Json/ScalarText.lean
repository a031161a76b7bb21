import Folio.Json.Printer
import Folio.Proofs.Json.WellFormed
import Folio.Proofs.Text.Leading

/-!
# Reading written scalars

The text of a word, of a string or of an integer is read as what it was written for, and what
stands behind it stays. Behind an integer no more of a number may follow.
-/

namespace Folio.Json

open Reading

-- ---------------------------------------------------------------------------
-- Words
-- ---------------------------------------------------------------------------

theorem gives_readWord (word rest : List Char) : Gives (readWord word) (word ++ rest) () rest := by
  induction word with
  | nil => exact gives_pure () rest
  | cons c word ih =>
    refine (gives_peek _).bind ?_
    show Gives (if c = c then _ else _) _ _ _
    rw [if_pos rfl]
    exact (gives_advance _ _).bind ih

-- ---------------------------------------------------------------------------
-- Strings
-- ---------------------------------------------------------------------------

theorem gives_readHexUnit {a b c d : Char} {unit : Nat} (h : hexUnit? a b c d = some unit)
    (rest : List Char) : Gives readHexUnit (a :: b :: c :: d :: rest) unit rest := by
  have hdigits : Gives (do advance; advance; advance; advance; return unit)
      (a :: b :: c :: d :: rest) unit rest :=
    (gives_advance _ _).bind ((gives_advance _ _).bind ((gives_advance _ _).bind
      ((gives_advance _ _).bind (gives_pure unit rest))))
  intro position
  obtain ⟨after, ha⟩ := hdigits position
  refine ⟨after, ?_⟩
  rw [← ha]
  simp only [readHexUnit, StateT.run_bind, StateT.run_get, pure_bind, h]

theorem hexUnit?_hexByte : ∀ n < 0x20,
    hexUnit? '0' '0' (Nat.digitChar (n / 16)) (Nat.digitChar (n % 16)) = some n := by
  decide

theorem gives_readUnicodeEscape {c : Char} (h : c.toNat < 0x20) (rest : List Char) :
    Gives readUnicodeEscape ('0' :: '0' :: Text.hexByte c.toNat.toUInt8 ++ rest) c rest := by
  have hbyte : c.toNat.toUInt8.toNat = c.toNat := by
    simp
    omega
  rw [Text.hexByte, hbyte]
  refine (gives_readHexUnit (hexUnit?_hexByte c.toNat h) rest).bind ?_
  rw [if_neg (by simp [isTrailingSurrogate]; omega), if_neg (by simp [isLeadingSurrogate]; omega),
    Char.ofNat_toNat]
  exact gives_pure c rest

/-- A letter behind a backslash. -/
theorem gives_readStringStep_escape {letter c : Char} (h : escapeLetter? letter = some c)
    (before rest : List Char) :
    Gives (readStringStep before) ('\\' :: letter :: rest) (some (c :: before)) rest := by
  have hescape : Gives readEscape (letter :: rest) c rest := by
    refine (gives_peek _).bind ?_
    rw [List.head?_cons]
    split
    · next heq => cases heq
    · next heq =>
      cases heq
      cases h
    · next heq =>
      cases heq
      rw [h]
      exact (gives_advance _ _).bind (gives_pure c rest)
  exact (gives_peek _).bind ((gives_advance _ _).bind (hescape.bind (gives_pure _ rest)))

theorem gives_readStringStep_control {c : Char} (h : c.toNat < 0x20) (before rest : List Char) :
    Gives (readStringStep before)
      ('\\' :: 'u' :: '0' :: '0' :: Text.hexByte c.toNat.toUInt8 ++ rest) (some (c :: before))
        rest := by
  have hescape : Gives readEscape ('u' :: '0' :: '0' :: Text.hexByte c.toNat.toUInt8 ++ rest) c
      rest :=
    (gives_peek _).bind ((gives_advance _ _).bind (gives_readUnicodeEscape h rest))
  exact (gives_peek _).bind ((gives_advance _ _).bind (hescape.bind (gives_pure _ rest)))

theorem gives_readStringStep_plain {c : Char} (hq : c ≠ '"') (hb : c ≠ '\\')
    (hc : isControl c = false) (before rest : List Char) :
    Gives (readStringStep before) (c :: rest) (some (c :: before)) rest := by
  refine (gives_peek _).bind ?_
  rw [List.head?_cons]
  split
  · next heq => cases heq
  · next heq =>
    cases heq
    exact absurd rfl hq
  · next heq =>
    cases heq
    exact absurd rfl hb
  · next heq =>
    cases heq
    rw [hc]
    exact (gives_advance _ _).bind (gives_pure _ rest)

theorem gives_readStringStep (c : Char) (before rest : List Char) :
    Gives (readStringStep before) (escapedChar c ++ rest) (some (c :: before)) rest := by
  unfold escapedChar
  split
  case h_8 hq hb _ _ _ _ _ =>
    split
    · next hc => exact gives_readStringStep_control hc before rest
    · next hc =>
      refine gives_readStringStep_plain hq hb ?_ before rest
      simpa [isControl] using hc
  -- the characters that have a letter of their own
  all_goals exact gives_readStringStep_escape rfl before rest

theorem escapedChar_ne_nil (c : Char) : escapedChar c ≠ [] := by
  unfold escapedChar
  split
  case h_8 => split <;> simp
  all_goals simp

theorem walk_readStringStep (chars before rest : List Char) :
    Walk readStringStep before (chars.flatMap escapedChar ++ '"' :: rest) (chars.reverse ++ before)
      rest := by
  induction chars generalizing before with
  | nil =>
    exact .stop ((gives_peek _).bind ((gives_advance _ _).bind (gives_pure none rest)))
  | cons c chars ih =>
    rw [List.flatMap_cons, List.append_assoc, List.reverse_cons, List.append_assoc]
    refine .go (gives_readStringStep c before _) ?_ (ih (c :: before))
    have hlength := List.length_pos_iff.mpr (escapedChar_ne_nil c)
    simp only [List.length_append]
    omega

theorem gives_readString (s : String) (rest : List Char) :
    Gives readString (s.toList.flatMap escapedChar ++ '"' :: rest) s rest := by
  refine (walk_readStringStep s.toList [] rest).iterate.bind ?_
  rw [List.append_nil, List.reverse_reverse, String.ofList_toList]
  exact gives_pure s rest

-- ---------------------------------------------------------------------------
-- Integers
-- ---------------------------------------------------------------------------

/-- No more of a number stands at the front. -/
def EndsNumber (rest : List Char) : Prop :=
  ∀ c ∈ rest.head?, c.isDigit = false ∧ c ≠ '.' ∧ c ≠ 'e' ∧ c ≠ 'E'

theorem head?_toDigits_append (n : Nat) (rest : List Char) :
    (Nat.toDigits 10 n ++ rest).head? = (Nat.toDigits 10 n).head? := by
  obtain ⟨d, others, hd⟩ := List.exists_cons_of_ne_nil (Nat.toDigits_ne_nil (b := 10) (n := n))
  rw [hd]
  rfl

/-- Only zero starts with a zero. -/
theorem head?_toDigits {n : Nat} (h : (Nat.toDigits 10 n).head? = some '0') : n = 0 := by
  induction n using Nat.strongRecOn with
  | ind n ih =>
    by_cases hn : n < 10
    · have hdigit : ∀ m < 10, Nat.digitChar m = '0' → m = 0 := by decide
      rw [Nat.toDigits_of_lt_base hn] at h
      exact hdigit n hn (Option.some.inj h)
    · rw [Nat.toDigits_of_base_le (by decide) (by omega), head?_toDigits_append] at h
      have := ih (n / 10) (by omega) h
      omega

theorem dropWhile_digits {digits rest : List Char} (hd : ∀ c ∈ digits, c.isDigit = true)
    (hr : EndsNumber rest) : (digits ++ rest).dropWhile Char.isDigit = rest := by
  rw [List.dropWhile_append_of_pos hd]
  cases rest with
  | nil => rfl
  | cons c rest => exact List.dropWhile_cons_of_neg (by simp [(hr c rfl).1])

theorem gives_readDigits {digits rest : List Char} (hd : ∀ c ∈ digits, c.isDigit = true)
    (hn : digits ≠ []) (hr : EndsNumber rest) (atEnd : Fault) :
    Gives (readDigits atEnd) (digits ++ rest) digits rest := by
  obtain ⟨d, others, rfl⟩ := List.exists_cons_of_ne_nil hn
  have htake := gives_takeWhile Char.isDigit (d :: others ++ rest)
  rw [Numeral.takeWhile_digits hd fun c hc => (hr c hc).1, dropWhile_digits hd hr] at htake
  refine (gives_peek _).bind ?_
  show Gives (if d.isDigit then takeWhile Char.isDigit else refuse .invalidNumber) _ _ _
  rw [if_pos (hd d List.mem_cons_self)]
  exact htake

theorem gives_readWhole {rest : List Char} (h : EndsNumber rest) (atEnd : Fault) (n : Nat) :
    Gives (readWhole atEnd) (Nat.toDigits 10 n ++ rest) (Nat.toDigits 10 n) rest := by
  by_cases hn : n = 0
  · subst hn
    refine (gives_peek _).bind ((gives_advance '0' rest).bind ((gives_peek rest).bind ?_))
    cases hc : rest.head? with
    | none => exact gives_pure _ rest
    | some c =>
      show Gives (if c.isDigit then refuse .invalidNumber else return ['0']) _ _ _
      rw [if_neg (by simp [(h c hc).1])]
      exact gives_pure _ rest
  · have hdigits := gives_readDigits
      (fun c hc => Nat.isDigit_of_mem_toDigits (by decide) (by decide) hc)
      (Nat.toDigits_ne_nil (b := 10) (n := n)) h atEnd
    refine (gives_peek _).bind ?_
    split
    · next heq =>
      rw [head?_toDigits_append] at heq
      exact absurd (head?_toDigits heq) hn
    · exact hdigits

theorem gives_readFraction {rest : List Char} (h : EndsNumber rest) (atEnd : Fault) :
    Gives (readFraction atEnd) rest none rest := by
  refine (gives_peek rest).bind ?_
  split
  · next heq => exact absurd rfl (h '.' heq).2.1
  · exact gives_pure none rest

theorem gives_readExponent {rest : List Char} (h : EndsNumber rest) (atEnd : Fault) :
    Gives (readExponent atEnd) rest none rest := by
  refine (gives_peek rest).bind ?_
  split
  · next heq =>
    simp only [Bool.or_eq_true, decide_eq_true_eq] at heq
    rcases heq with heq | heq
    · exact absurd rfl (h 'e' heq).2.2.1
    · exact absurd rfl (h 'E' heq).2.2.2
  · exact gives_pure none rest

theorem gives_readNumberParts {rest : List Char} (h : EndsNumber rest) (atEnd : Fault) (n : Int) :
    Gives (readNumberParts atEnd) (Number.intText n ++ rest)
      ⟨decide (n < 0), Nat.toDigits 10 n.natAbs, none, none⟩ rest := by
  have hparts (negative : Bool) : Gives (do
      let whole ← readWhole atEnd
      let fraction ← readFraction atEnd
      let exponent ← readExponent atEnd
      return { negative, whole, fraction, exponent : NumberParts })
        (Nat.toDigits 10 n.natAbs ++ rest) ⟨negative, Nat.toDigits 10 n.natAbs, none, none⟩ rest :=
    (gives_readWhole h atEnd n.natAbs).bind ((gives_readFraction h atEnd).bind
      ((gives_readExponent h atEnd).bind (gives_pure _ rest)))
  unfold Number.intText
  split
  · next hn =>
    rw [decide_eq_true hn]
    exact (gives_peek _).bind ((gives_advance _ _).bind (hparts true))
  · next hn =>
    have hsign : (Nat.toDigits 10 n.natAbs ++ rest).head? ≠ some '-' := by
      intro hs
      rw [head?_toDigits_append] at hs
      have hdigit := Nat.isDigit_of_mem_toDigits (by decide) (by decide) (List.mem_of_mem_head? hs)
      cases hdigit
    rw [decide_eq_false hn]
    refine (gives_peek _).bind ?_
    simp only [hsign, decide_false]
    exact hparts false

theorem gives_readNumber {n : Int} (hn : (Number.int n).InRange) {rest : List Char}
    (h : EndsNumber rest) : Gives readNumber (Number.intText n ++ rest) (.int n) rest := by
  have hvalue : NumberParts.integer? ⟨decide (n < 0), Nat.toDigits 10 n.natAbs, none, none⟩ =
      some n := by
    obtain ⟨hl, hu⟩ := hn
    simp only [NumberParts.integer?, Numeral.valueOf_toDigits, Option.isSome_none, Bool.or_self,
      Bool.false_eq_true, if_false]
    by_cases h0 : n < 0
    · rw [if_pos (decide_eq_true h0), if_pos (by
        rw [Bool.and_eq_true, decide_eq_true_eq, decide_eq_true_eq]
        omega)]
      exact congrArg some (by omega)
    · rw [if_neg (by simpa using h0), if_pos (by omega)]
      exact congrArg some (by omega)
  have hnumber : NumberParts.number ⟨decide (n < 0), Nat.toDigits 10 n.natAbs, none, none⟩ =
      .ok (.int n) := by
    rw [NumberParts.number, hvalue]
  refine (gives_readNumberParts h _ n).bind ?_
  rw [hnumber]
  exact gives_pure _ rest

end Folio.Json
