import Folio.Json.Number
import Folio.Text.Blank
import Mathlib.Data.List.TakeWhile

/-!
# The characters of numbers

Numbers are written with digits, signs, a point and an `e`, in all their forms.
-/

namespace Folio

namespace Decimal

def IsNumberChar (c : Char) : Prop :=
  c.isDigit = true ∨ c ∈ ['-', '+', '.', 'e']

instance : DecidablePred IsNumberChar := by
  unfold IsNumberChar
  infer_instance

def IsNumberText (text : List Char) : Prop :=
  ∀ c ∈ text, IsNumberChar c

theorem isNumberText_append {text more : List Char} :
    IsNumberText (text ++ more) ↔ IsNumberText text ∧ IsNumberText more :=
  List.forall_mem_append

theorem isNumberText_cons {c : Char} {text : List Char} :
    IsNumberText (c :: text) ↔ IsNumberChar c ∧ IsNumberText text :=
  List.forall_mem_cons

theorem IsNumberText.subset {text more : List Char} (h : IsNumberText more) (hs : text ⊆ more) :
    IsNumberText text :=
  fun c hc => h c (hs hc)

theorem isNumberText_toDigits (n : Nat) : IsNumberText (Nat.toDigits 10 n) :=
  fun _ hc => .inl (Nat.isDigit_of_mem_toDigits (by decide) (by decide) hc)

theorem isNumberText_zeros (n : Nat) : IsNumberText (List.replicate n '0') := by
  intro c hc
  rw [List.eq_of_mem_replicate hc]
  exact .inl (by decide)

theorem Digits.trimmed_subset (d : Digits) : d.trimmed.digits ⊆ d.digits := by
  unfold trimmed
  split
  · exact List.take_subset 1 _
  · intro c hc
    have hm := (List.dropWhile_suffix (· = '0')).subset (List.mem_reverse.mp hc)
    exact List.mem_reverse.mp hm

theorem Digits.isNumberText_trimmed {d : Digits} (h : IsNumberText d.digits) :
    IsNumberText d.trimmed.digits :=
  h.subset d.trimmed_subset

theorem isNumberText_zero : IsNumberText ['0'] :=
  isNumberText_zeros 1

theorem Double.isNumberText_onGrid? {x : Double} {last : Int} {d : Digits}
    (h : x.onGrid? last = some d) : IsNumberText d.digits := by
  obtain ⟨steps, _, rfl⟩ := Option.map_eq_some_iff.mp h
  exact Digits.isNumberText_trimmed (isNumberText_toDigits steps)

theorem Double.isNumberText_shortest (x : Double) : IsNumberText x.shortest.digits := by
  unfold shortest
  split
  · exact isNumberText_zero
  · simp only
    cases hd : (List.range 17).findSome? fun (k : Nat) =>
        x.onGrid? (leadingExponent x.ratio.1 x.ratio.2 - k) with
    | none => exact isNumberText_zero
    | some d =>
      obtain ⟨k, _, hk⟩ := List.exists_of_findSome?_eq_some hd
      exact isNumberText_onGrid? hk

/-- A plain number is made of the digits, zeros and a point. -/
theorem forall_mem_plain {p : Char → Prop} {digits : List Char} (h : ∀ c ∈ digits, p c)
    (hzero : p '0') (hpoint : p '.') (exponent : Int) : ∀ c ∈ plain digits exponent, p c := by
  have hzeros (n : Nat) : ∀ c ∈ List.replicate n '0', p c := by
    intro c hc
    rwa [List.eq_of_mem_replicate hc]
  unfold plain
  split
  · refine List.forall_mem_append.mpr ⟨List.forall_mem_append.mpr ⟨?_, hzeros _⟩, h⟩
    exact List.forall_mem_cons.mpr ⟨hzero, List.forall_mem_singleton.mpr hpoint⟩
  · refine List.forall_mem_append.mpr ⟨List.forall_mem_append.mpr
      ⟨fun c hc => h c (List.mem_of_mem_take hc), hzeros _⟩, List.forall_mem_cons.mpr ⟨hpoint, ?_⟩⟩
    split
    · exact List.forall_mem_singleton.mpr hzero
    · exact fun c hc => h c (List.mem_of_mem_drop hc)

theorem isNumberText_plain {digits : List Char} (h : IsNumberText digits) (exponent : Int) :
    IsNumberText (plain digits exponent) :=
  forall_mem_plain h (.inl (by decide)) (.inr (by decide)) exponent

theorem Layout.isNumberText_exponential (layout : Layout) {digits : List Char}
    (h : IsNumberText digits) (exponent : Int) :
    IsNumberText (layout.exponential digits exponent) := by
  have hpoint : IsNumberChar '.' := .inr (by decide)
  unfold exponential
  refine isNumberText_append.mpr ⟨isNumberText_append.mpr ⟨isNumberText_append.mpr
    ⟨isNumberText_append.mpr ⟨h.subset (List.take_subset _ _), ?_⟩, ?_⟩,
      isNumberText_zeros _⟩, isNumberText_toDigits _⟩
  · split
    · split
      · exact isNumberText_cons.mpr ⟨hpoint, isNumberText_zero⟩
      · simp [IsNumberText]
    · rename_i more hm
      exact isNumberText_cons.mpr ⟨hpoint, h.subset (List.drop_subset _ _)⟩
  · intro c hc
    right
    split at hc <;> revert c <;> decide

theorem Layout.isNumberText_write (layout : Layout) (negative : Bool) {d : Digits}
    (h : IsNumberText d.digits) : IsNumberText (layout.write negative d) := by
  have hbody : IsNumberText (if layout.leastPlain ≤ d.exponent && d.exponent ≤ layout.greatestPlain
      then plain d.digits d.exponent else layout.exponential d.digits d.exponent) := by
    split
    · exact isNumberText_plain h _
    · exact layout.isNumberText_exponential h _
  cases negative with
  | false => exact hbody
  | true =>
    show IsNumberText ('-' :: _)
    exact isNumberText_cons.mpr ⟨.inr (by decide), hbody⟩

end Decimal

namespace Number

open Decimal (IsNumberText isNumberText_cons isNumberText_toDigits)

theorem isNumberText_intText (n : Int) : IsNumberText (intText n) := by
  unfold intText
  split
  · exact isNumberText_cons.mpr ⟨.inr (by decide), isNumberText_toDigits _⟩
  · exact isNumberText_toDigits _

theorem isNumberText_floatText (x : Float) : IsNumberText (floatText x) :=
  layout.isNumberText_write _ (Decimal.Double.isNumberText_shortest _)

theorem isNumberText_looseText (n : Number) : IsNumberText n.looseText := by
  cases n with
  | int n => exact isNumberText_intText n
  | float x =>
    unfold looseText
    simp only
    split
    · split
      · exact isNumberText_floatText x
      · exact isNumberText_intText _
    · exact isNumberText_floatText x

end Number

end Folio
