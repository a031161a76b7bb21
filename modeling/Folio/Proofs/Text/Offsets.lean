import Mathlib.Data.List.Basic

/-!
# Places in a text as byte offsets

A reader can keep its place in a text as a number of bytes of the text's UTF-8 form. Such an
offset is a place only where a character begins or the text ends; a text is cut nowhere else.
-/

namespace Folio.Text

/-- What stops a reader that keeps offsets and counts in bounded numbers. -/
inductive Crash where
  /-- An offset outside of the text, or inside a character. -/
  | offset
  | overflow
  deriving DecidableEq, Repr

/-- The bytes of a text. -/
def byteSize : List Char → Nat
  | [] => 0
  | c :: text => c.utf8Size + byteSize text

@[simp] theorem byteSize_nil : byteSize [] = 0 := rfl

@[simp] theorem byteSize_cons (c : Char) (text : List Char) :
    byteSize (c :: text) = c.utf8Size + byteSize text := rfl

@[simp] theorem byteSize_append (text more : List Char) :
    byteSize (text ++ more) = byteSize text + byteSize more := by
  induction text with
  | nil => simp
  | cons c text ih => simp [ih, Nat.add_assoc]

theorem utf8ByteSize_ofList (text : List Char) :
    (String.ofList text).utf8ByteSize = byteSize text := by
  induction text with
  | nil => rfl
  | cons c text ih =>
    have hcons : String.ofList (c :: text) = String.singleton c ++ String.ofList text := by
      rw [String.singleton_eq_ofList, ← String.ofList_append]
      rfl
    rw [hcons, String.utf8ByteSize_append, String.utf8ByteSize_singleton, ih, byteSize_cons]

/-- The parts of a text in front of an offset and behind it. -/
def cutAt : Nat → List Char → Except Crash (List Char × List Char)
  | 0, text => .ok ([], text)
  | _ + 1, [] => .error .offset
  | n + 1, c :: text =>
    if n + 1 < c.utf8Size then .error .offset
    else (cutAt (n + 1 - c.utf8Size) text).map fun (front, rest) => (c :: front, rest)

/-- The part of a text between two offsets. -/
def slice (start stop : Nat) (text : List Char) : Except Crash (List Char) := do
  let (front, _) ← cutAt stop text
  let (_, part) ← cutAt start front
  return part

/-- The offset of the first character of a kind, or of the end. -/
def offsetOf (p : Char → Bool) : List Char → Nat
  | [] => 0
  | c :: text => if p c then 0 else c.utf8Size + offsetOf p text

/-- What stands in front of that offset are the characters that are not of the kind. -/
theorem offsetOf_not (p : Char → Bool) (text : List Char) :
    offsetOf (!p ·) text = byteSize (text.takeWhile p) := by
  induction text with
  | nil => rfl
  | cons c text ih =>
    cases hc : p c with
    | false => simp [offsetOf, hc]
    | true => simp [offsetOf, hc, ih]

section
variable {offset : Nat} {text front rest : List Char}

theorem cutAt_byteSize (front rest : List Char) :
    cutAt (byteSize front) (front ++ rest) = .ok (front, rest) := by
  induction front with
  | nil => rw [byteSize_nil, cutAt, List.nil_append]
  | cons c front ih =>
    have hpos := c.utf8Size_pos
    obtain ⟨n, hn⟩ : ∃ n, byteSize (c :: front) = n + 1 :=
      Nat.exists_eq_add_one.mpr (Nat.add_pos_left hpos _)
    have hcut : byteSize (c :: front) - c.utf8Size = byteSize front := Nat.add_sub_cancel_left ..
    have hle : c.utf8Size ≤ byteSize (c :: front) := Nat.le_add_right ..
    rw [hn] at hcut hle ⊢
    rw [List.cons_append, cutAt, if_neg (Nat.not_lt.mpr hle), hcut, ih]
    rfl

/-- A text is cut just where one part of it ends and another begins. -/
theorem cutAt_eq_ok_iff :
    cutAt offset text = .ok (front, rest) ↔ text = front ++ rest ∧ byteSize front = offset := by
  constructor
  · intro h
    fun_induction cutAt offset text generalizing front rest with
    | case1 text =>
      cases h
      exact ⟨rfl, rfl⟩
    | case2 => cases h
    | case3 => cases h
    | case4 n c text hc ih =>
      cases hr : cutAt (n + 1 - c.utf8Size) text with
      | error crash =>
        rw [hr] at h
        cases h
      | ok parts =>
        rw [hr] at h
        cases h
        obtain ⟨htext, hsize⟩ := ih hr
        refine ⟨by rw [htext, List.cons_append], ?_⟩
        rw [byteSize_cons, hsize]
        omega
  · rintro ⟨rfl, rfl⟩
    exact cutAt_byteSize front rest

/-- The places of a text are those that core knows. -/
theorem exists_cutAt_iff :
    (∃ parts, cutAt offset text = .ok parts) ↔
      (String.Pos.Raw.mk offset).IsValid (String.ofList text) := by
  rw [String.Pos.Raw.isValid_ofList]
  constructor
  · rintro ⟨⟨front, rest⟩, h⟩
    obtain ⟨rfl, rfl⟩ := cutAt_eq_ok_iff.mp h
    exact ⟨front.length, by rw [List.take_left, utf8ByteSize_ofList]⟩
  · rintro ⟨i, hi⟩
    have htext : text = text.take i ++ text.drop i := (List.take_append_drop i text).symm
    refine ⟨(text.take i, text.drop i), cutAt_eq_ok_iff.mpr ⟨htext, ?_⟩⟩
    rw [← utf8ByteSize_ofList]
    exact hi.symm

theorem slice_between (before part after : List Char) :
    slice (byteSize before) (byteSize (before ++ part)) (before ++ (part ++ after)) = .ok part := by
  have hstop := cutAt_byteSize (before ++ part) after
  rw [List.append_assoc] at hstop
  simp only [slice, hstop, cutAt_byteSize, bind, Except.bind, pure, Except.pure]

end

end Folio.Text
