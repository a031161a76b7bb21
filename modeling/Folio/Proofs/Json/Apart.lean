import Folio.Proofs.Decimal.Shortest
import Folio.Proofs.Json.Written

/-!
# Written data is told apart

Different data has different compact texts, whatever numbers, strings and brackets it is made
of. The text of a value even says where it ends, once it is known that no more of a number
follows, so the texts of the parts of a value can be told one by one.
-/

namespace Folio

-- ---------------------------------------------------------------------------
-- Numbers
-- ---------------------------------------------------------------------------

namespace Number

theorem toDigits_injective : Function.Injective (Nat.toDigits 10) :=
  Function.LeftInverse.injective Numeral.valueOf_toDigits

theorem minus_notMem_toDigits (n : Nat) : '-' ∉ Nat.toDigits 10 n :=
  Decimal.notMem_of_isDigit
    (fun _ hc => Nat.isDigit_of_mem_toDigits (by omega) (by omega) hc) rfl

theorem intText_injective : Function.Injective intText := by
  intro n m h
  unfold intText at h
  split at h <;> split at h
  · have hsize := toDigits_injective (List.cons.inj h).2
    omega
  · exact absurd (h ▸ List.mem_cons_self) (minus_notMem_toDigits m.natAbs)
  · exact absurd (h ▸ List.mem_cons_self) (minus_notMem_toDigits n.natAbs)
  · have hsize := toDigits_injective h
    omega

theorem eq_of_toBits_eq {x y : Float} (h : x.toBits = y.toBits) : x = y := by
  obtain ⟨⟨bits, hbits⟩⟩ := x
  obtain ⟨⟨other, hother⟩⟩ := y
  cases h
  rfl

/-- Two doubles with one text are one double, signed zeros and all. -/
theorem floatText_injective : Function.Injective floatText := by
  intro x y h
  have hsized (x : Float) : (Decimal.Double.ofFloat x).Sized := Decimal.Double.sized_ofBits _
  obtain ⟨hsign, hvalue⟩ :=
    layout.eq_of_write_eq (hsized x).proper_shortest (hsized y).proper_shortest h
  have hbits := Decimal.Double.eq_of_shortest_value_eq x.toBits.toNat_lt y.toBits.toNat_lt
    hsign hvalue
  exact eq_of_toBits_eq (UInt64.toNat_inj.mp hbits)

theorem eq_minus_of_mem_intText {n : Int} {c : Char} (hc : c ∈ intText n) :
    c = '-' ∨ c.isDigit = true := by
  have hdigit {c : Char} (hc : c ∈ Nat.toDigits 10 n.natAbs) : c.isDigit = true :=
    Nat.isDigit_of_mem_toDigits (by omega) (by omega) hc
  unfold intText at hc
  split at hc
  · exact (List.mem_cons.mp hc).imp_right hdigit
  · exact .inr (hdigit hc)

/-- A double always shows that it is one. -/
theorem intText_ne_floatText (n : Int) (x : Float) : intText n ≠ floatText x := by
  intro h
  have hmark : '.' ∈ floatText x ∨ 'e' ∈ floatText x := layout.point_or_power_mem_write _ _
  rw [← h] at hmark
  rcases hmark with hm | hm
  · rcases eq_minus_of_mem_intText hm with hc | hc <;> cases hc
  · rcases eq_minus_of_mem_intText hm with hc | hc <;> cases hc

theorem text_injective : Function.Injective text := by
  intro n m h
  cases n with
  | int n =>
    cases m with
    | int m => rw [intText_injective h]
    | float y => exact absurd h (intText_ne_floatText n y)
  | float x =>
    cases m with
    | int m => exact absurd h.symm (intText_ne_floatText m x)
    | float y => rw [floatText_injective h]

theorem isNumberText_text (n : Number) : Decimal.IsNumberText n.text := by
  cases n with
  | int n => exact isNumberText_intText n
  | float x => exact isNumberText_floatText x

theorem text_eq_cons (n : Number) :
    ∃ c rest, n.text = c :: rest ∧ (c = '-' ∨ c.isDigit = true) := by
  cases n with
  | int n => exact Json.intText_eq_cons n
  | float x =>
    have hproper := (Decimal.Double.sized_ofBits x.toBits.toNat).proper_shortest
    obtain ⟨c, rest, hc, hdigit⟩ := hproper.write_eq_cons layout
    cases hs : (Decimal.Double.ofFloat x).negative with
    | false =>
      refine ⟨c, rest, ?_, .inr hdigit⟩
      rw [text, floatText, hs]
      exact hc
    | true =>
      refine ⟨'-', c :: rest, ?_, .inl rfl⟩
      rw [text, floatText, hs]
      exact congrArg ('-' :: ·) hc

end Number

namespace Json

open Decimal (IsNumberChar IsNumberText)

-- ---------------------------------------------------------------------------
-- Texts that say where they end
-- ---------------------------------------------------------------------------

section
variable {α : Type} {text : α → List Char} {rest rest' : List Char}

/-- No other value has the text of this one in front, if both are followed by something that
may stand behind a value. -/
def Apart (text : α → List Char) (value : α) : Prop :=
  ∀ (other : α) (rest rest' : List Char), Closed rest → Closed rest' →
    text value ++ rest = text other ++ rest' → value = other ∧ rest = rest'

theorem closed_nil : Closed [] := by
  rintro c ⟨⟩

theorem Apart.eq {value other : α} (h : Apart text value) (heq : text value = text other) :
    value = other :=
  (h other [] [] closed_nil closed_nil (congrArg (· ++ []) heq)).1

theorem takeWhile_numberText {number : List Char} (h : IsNumberText number) (hr : Closed rest) :
    (number ++ rest).takeWhile (IsNumberChar ·) = number := by
  rw [List.takeWhile_append_of_pos fun c hc => decide_eq_true (h c hc)]
  cases rest with
  | nil => simp
  | cons c rest =>
    have hclosing : ∀ c ∈ [',', ']', '\x7d'], ¬ IsNumberChar c := by decide
    simp [hclosing c (hr c rfl)]

theorem apart_number (n : Number) : Apart Number.text n := by
  intro m rest rest' hr hr' h
  have hnumber := congrArg (List.takeWhile (IsNumberChar ·)) h
  rw [takeWhile_numberText n.isNumberText_text hr,
    takeWhile_numberText m.isNumberText_text hr'] at hnumber
  rw [hnumber] at h
  exact ⟨Number.text_injective hnumber, List.append_cancel_left h⟩

theorem stringText_append_inj {s t : String} (h : stringText s ++ rest = stringText t ++ rest') :
    s = t ∧ rest = rest' := by
  have hs := gives_readKey s rest
  rw [h] at hs
  exact hs.unique (gives_readKey t rest')

-- ---------------------------------------------------------------------------
-- Entries between brackets
-- ---------------------------------------------------------------------------

variable {close : Char}

theorem entriesText_inj (hc : close ∈ [',', ']', '\x7d']) (hcomma : close ≠ ',')
    {values others : List α} (h : ∀ value ∈ values, Apart text value)
    (heq : entriesText (values.map text) close rest =
      entriesText (others.map text) close rest') : values = others ∧ rest = rest' := by
  induction values generalizing others with
  | nil =>
    cases others with
    | nil => exact ⟨rfl, (List.cons.inj heq).2⟩
    | cons other others =>
      rw [List.map_cons, entriesText_cons] at heq
      exact absurd (List.cons.inj heq).1 hcomma
  | cons value values ih =>
    cases others with
    | nil =>
      rw [List.map_cons, entriesText_cons] at heq
      exact absurd (List.cons.inj heq).1.symm hcomma
    | cons other others =>
      obtain ⟨hv, hvs⟩ := List.forall_mem_cons.mp h
      simp only [List.map_cons, entriesText_cons] at heq
      obtain ⟨rfl, hrest⟩ := hv other _ _ (closed_entriesText _ hc rest)
        (closed_entriesText _ hc rest') (List.cons.inj heq).2
      obtain ⟨rfl, rfl⟩ := ih hvs hrest
      exact ⟨rfl, rfl⟩

/-- The first entry has no comma in front, so it may not start like the closing bracket. -/
theorem intercalate_inj (hc : close ∈ [',', ']', '\x7d']) (hcomma : close ≠ ',')
    (hstart : ∀ value, ∃ c more, text value = c :: more ∧ c ≠ close)
    {values others : List α} (h : ∀ value ∈ values, Apart text value)
    (heq : List.intercalate [','] (values.map text) ++ close :: rest =
      List.intercalate [','] (others.map text) ++ close :: rest') :
    values = others ∧ rest = rest' := by
  have hfirst (value : α) (more left : List Char) : text value ++ more ≠ close :: left := by
    obtain ⟨c, tail, ht, hne⟩ := hstart value
    rw [ht]
    exact fun heq => hne (List.cons.inj heq).1
  cases values with
  | nil =>
    cases others with
    | nil => exact ⟨rfl, (List.cons.inj heq).2⟩
    | cons other others =>
      rw [List.map_cons, intercalate_append] at heq
      exact absurd heq.symm (hfirst _ _ _)
  | cons value values =>
    cases others with
    | nil =>
      rw [List.map_cons, intercalate_append] at heq
      exact absurd heq (hfirst _ _ _)
    | cons other others =>
      simp only [List.map_cons, intercalate_append] at heq
      refine entriesText_inj hc hcomma h ?_
      simp only [List.map_cons, entriesText_cons, heq]

end

-- ---------------------------------------------------------------------------
-- Data
-- ---------------------------------------------------------------------------

inductive Kind where
  | null
  | bool
  | number
  | string
  | array
  | object
  deriving DecidableEq, Repr

def kind : Json → Kind
  | .null => .null
  | .bool _ => .bool
  | .number _ => .number
  | .string _ => .string
  | .array _ => .array
  | .object _ => .object

/-- The kind of the values whose texts start with the character. -/
def kindOf? (c : Char) : Option Kind :=
  if c = '-' ∨ c.isDigit then some .number
  else
    match c with
    | 'n' => some .null
    | 't' | 'f' => some .bool
    | '"' => some .string
    | '[' => some .array
    | '{' => some .object
    | _ => none

theorem compact_eq_cons (value : Json) :
    ∃ c rest, compact value = c :: rest ∧ kindOf? c = some value.kind := by
  cases value with
  | null => exact ⟨'n', _, rfl, rfl⟩
  | bool b => cases b <;> [exact ⟨'f', _, rfl, rfl⟩; exact ⟨'t', _, rfl, rfl⟩]
  | number n =>
    obtain ⟨c, rest, hc, hstart⟩ := n.text_eq_cons
    exact ⟨c, rest, hc, if_pos hstart⟩
  | string s => exact ⟨'"', _, rfl, rfl⟩
  | array items => exact ⟨'[', _, rfl, rfl⟩
  | object members => exact ⟨'{', _, rfl, rfl⟩

theorem kind_eq {value other : Json} {rest rest' : List Char}
    (h : compact value ++ rest = compact other ++ rest') : value.kind = other.kind := by
  obtain ⟨c, more, hc, hk⟩ := compact_eq_cons value
  obtain ⟨c', more', hc', hk'⟩ := compact_eq_cons other
  rw [hc, hc'] at h
  obtain ⟨rfl, -⟩ := List.cons.inj h
  exact Option.some.inj (hk.symm.trans hk')

/-- No value starts like the end of a list, and no member like the end of an object. -/
theorem compact_start (value : Json) : ∃ c rest, compact value = c :: rest ∧ c ≠ ']' := by
  obtain ⟨c, rest, hc, hk⟩ := compact_eq_cons value
  refine ⟨c, rest, hc, ?_⟩
  rintro rfl
  cases hk

theorem memberText_start (m : String × Json) : ∃ c rest, memberText m = c :: rest ∧ c ≠ '\x7d' :=
  ⟨'"', _, rfl, by simp⟩

theorem Apart.member {key : String} {value : Json} (h : Apart compact value) :
    Apart memberText (key, value) := by
  rintro ⟨otherKey, other⟩ rest rest' hr hr' heq
  simp only [memberText, List.append_assoc, List.cons_append] at heq
  obtain ⟨rfl, hbehind⟩ := stringText_append_inj heq
  obtain ⟨rfl, rfl⟩ := h other rest rest' hr hr' (List.cons.inj hbehind).2
  exact ⟨rfl, rfl⟩

mutual
/-- The text of a value is told from all other texts, part by part. -/
theorem apart_compact : (value : Json) → Apart compact value
  | .null => by
    intro other rest rest' _ _ h
    cases other with
    | null => exact ⟨rfl, List.append_cancel_left h⟩
    | _ => cases kind_eq h
  | .bool b => by
    intro other rest rest' _ _ h
    cases other with
    | bool b' =>
      cases b <;> cases b'
      case false.false => exact ⟨rfl, List.append_cancel_left h⟩
      case true.true => exact ⟨rfl, List.append_cancel_left h⟩
      all_goals cases (List.cons.inj h).1
    | _ => cases kind_eq h
  | .number n => by
    intro other rest rest' hr hr' h
    cases other with
    | number m =>
      obtain ⟨rfl, rfl⟩ := apart_number n m rest rest' hr hr' h
      exact ⟨rfl, rfl⟩
    | _ => cases kind_eq h
  | .string s => by
    intro other rest rest' _ _ h
    cases other with
    | string t =>
      obtain ⟨rfl, rfl⟩ := stringText_append_inj h
      exact ⟨rfl, rfl⟩
    | _ => cases kind_eq h
  | .array items => by
    intro other rest rest' _ _ h
    cases other with
    | array others =>
      simp only [compact, compactItems_eq_map, List.cons_append, List.append_assoc,
        List.nil_append] at h
      obtain ⟨rfl, rfl⟩ := intercalate_inj (by simp) (by simp) compact_start (apart_items items)
        (List.cons.inj h).2
      exact ⟨rfl, rfl⟩
    | _ => cases kind_eq h
  | .object members => by
    intro other rest rest' _ _ h
    cases other with
    | object others =>
      simp only [compact, compactMembers_eq_map, List.cons_append, List.append_assoc,
        List.nil_append] at h
      obtain ⟨rfl, rfl⟩ := intercalate_inj (by simp) (by simp) memberText_start
        (apart_members members) (List.cons.inj h).2
      exact ⟨rfl, rfl⟩
    | _ => cases kind_eq h
theorem apart_items : (items : List Json) → ∀ item ∈ items, Apart compact item
  | [] => by simp
  | item :: items => List.forall_mem_cons.mpr ⟨apart_compact item, apart_items items⟩
theorem apart_members : (members : Members) → ∀ m ∈ members, Apart memberText m
  | [] => by simp
  | (_, value) :: members =>
    List.forall_mem_cons.mpr ⟨(apart_compact value).member, apart_members members⟩
end

theorem toText_injective : Function.Injective toText := by
  intro value other h
  exact (apart_compact value).eq (String.ofList_injective h)

end Json

end Folio
