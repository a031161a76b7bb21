import Folio.Proofs.Template.Values

/-!
# Data with a place for a string

Two pages can differ in one string of their data and in nothing else. A path finds the same
part of the data in both, because no path looks into a string.
-/

namespace Folio

namespace Json

/-- Data with a place for a string. -/
inductive Place where
  | here
  | item (before : List Json) (place : Place) (after : List Json)
  | member (before : Members) (key : String) (place : Place) (after : Members)

def Place.put (s : String) : Place → Json
  | .here => .string s
  | .item before place after => .array (before ++ place.put s :: after)
  | .member before key place after => .object (before ++ (key, place.put s) :: after)

/-- No string in the value holds the character. -/
inductive Lacks (c : Char) : Json → Prop
  | null : Lacks c .null
  | bool (b : Bool) : Lacks c (.bool b)
  | number (n : Number) : Lacks c (.number n)
  | string {s : String} (h : c ∉ s.toList) : Lacks c (.string s)
  | array {items : List Json} (h : ∀ item ∈ items, item.Lacks c) : Lacks c (.array items)
  | object {members : Members} (h : ∀ m ∈ members, m.2.Lacks c) : Lacks c (.object members)

/-- No string around the place holds the character. -/
def Place.Lacks (c : Char) : Place → Prop
  | .here => True
  | .item before place after =>
    (∀ value ∈ before, value.Lacks c) ∧ place.Lacks c ∧ ∀ value ∈ after, value.Lacks c
  | .member before _ place after =>
    (∀ m ∈ before, m.2.Lacks c) ∧ place.Lacks c ∧ ∀ m ∈ after, m.2.Lacks c

theorem Lacks.braceFree {value : Json} (h : value.Lacks '{') : value.BraceFree := by
  induction h with
  | null => exact .null
  | bool b => exact .bool b
  | number n => exact .number n
  | string h => exact .string h
  | array _ ih => exact .array ih
  | object _ ih => exact .object ih

theorem Place.Lacks.put {c : Char} {place : Place} (h : place.Lacks c) {s : String}
    (hs : c ∉ s.toList) : (place.put s).Lacks c := by
  induction place with
  | here => exact .string hs
  | item before place after ih =>
    obtain ⟨hb, hp, ha⟩ := h
    refine .array (List.forall_mem_append.mpr ⟨hb, List.forall_mem_cons.mpr ⟨ih hp, ha⟩⟩)
  | member before key place after ih =>
    obtain ⟨hb, hp, ha⟩ := h
    refine .object (List.forall_mem_append.mpr ⟨hb, List.forall_mem_cons.mpr ⟨ih hp, ha⟩⟩)

/-- What stands at some point of the data: nothing that depends on the string, or data with
the place in it. -/
inductive Datum where
  | fixed (value : Json)
  | around (place : Place)

def Datum.put (s : String) : Datum → Json
  | .fixed value => value
  | .around place => place.put s

def Datum.Lacks (c : Char) : Datum → Prop
  | .fixed value => value.Lacks c
  | .around place => place.Lacks c

end Json

namespace Template

open Json (Datum Place)

/-- The same part of the data is found, whatever string is put in. -/
def Uniform (c : Char) (found : String → Option Json) : Prop :=
  ∃ datum : Option Datum, (∀ p ∈ datum, p.Lacks c) ∧ ∀ s, found s = datum.map (Datum.put s)

variable {c : Char}

theorem uniform_none : Uniform c fun _ => none :=
  ⟨none, by simp, fun _ => rfl⟩

theorem uniform_some {datum : Datum} (h : datum.Lacks c) : Uniform c fun s => some (datum.put s) :=
  ⟨some datum, by simpa using h, fun _ => rfl⟩

theorem uniform_value {value : Json} (h : value.Lacks c) : Uniform c fun _ => some value :=
  uniform_some (show (Datum.fixed value).Lacks c from h)

theorem uniform_place {place : Place} (h : place.Lacks c) :
    Uniform c fun s => some (place.put s) :=
  uniform_some (show (Datum.around place).Lacks c from h)

theorem uniform_fixed {value : Option Json} (h : ∀ v ∈ value, v.Lacks c) :
    Uniform c fun _ => value := by
  cases value with
  | none => exact uniform_none
  | some value => exact uniform_value (h value rfl)

theorem Uniform.bind {found : String → Option Json} {next : Json → Option Json}
    (h : Uniform c found)
    (hn : ∀ datum : Datum, datum.Lacks c → Uniform c fun s => next (datum.put s)) :
    Uniform c fun s => (found s).bind next := by
  obtain ⟨datum, hp, hf⟩ := h
  simp only [hf]
  cases datum with
  | none => exact uniform_none
  | some datum => exact hn datum (hp datum rfl)

-- ---------------------------------------------------------------------------
-- Steps into data
-- ---------------------------------------------------------------------------

theorem lacks_of_get? {members : Json.Members} {key : String} {value : Json}
    (h : ∀ m ∈ members, m.2.Lacks c) (hg : members.get? key = some value) : value.Lacks c := by
  obtain ⟨before, after, rfl, -⟩ := List.lookup_eq_some_iff.mp hg
  exact h (key, value) (by simp)

theorem uniform_get? {before after : Json.Members} {key : String} {place : Place}
    (h : (Place.member before key place after).Lacks c) (name : String) :
    Uniform c fun s => Json.Members.get? (before ++ (key, place.put s) :: after) name := by
  obtain ⟨hb, hp, ha⟩ := h
  simp only [Json.Members.get?, List.lookup_append]
  cases hf : List.lookup name before with
  | some value => exact uniform_value (lacks_of_get? hb hf)
  | none =>
    simp only [Option.none_or]
    by_cases hk : name = key
    · simp only [hk, List.lookup_cons_self]
      exact uniform_place hp
    · simp only [List.lookup_cons, beq_eq_false_iff_ne.mpr hk]
      exact uniform_fixed fun value hv => lacks_of_get? ha hv

theorem uniform_getElem? {before after : List Json} {place : Place}
    (h : (Place.item before place after).Lacks c) (n : Nat) :
    Uniform c fun s => (before ++ place.put s :: after)[n]? := by
  obtain ⟨hb, hp, ha⟩ := h
  rcases Nat.lt_trichotomy n before.length with hn | rfl | hn
  · simp only [List.getElem?_append_left hn]
    exact uniform_fixed fun value hv => hb value (List.mem_of_getElem? hv)
  · simp only [List.getElem?_append_right (Nat.le_refl _), Nat.sub_self, List.getElem?_cons_zero]
    exact uniform_place hp
  · obtain ⟨m, hm⟩ : ∃ m, n - before.length = m + 1 := ⟨n - before.length - 1, by omega⟩
    simp only [List.getElem?_append_right (Nat.le_of_lt hn), hm, List.getElem?_cons_succ]
    exact uniform_fixed fun value hv => ha value (List.mem_of_getElem? hv)

theorem uniform_child? {datum : Datum} (h : datum.Lacks c) (key : String) :
    Uniform c fun s => child? (datum.put s) key := by
  cases datum with
  | fixed value =>
    show Uniform c fun _ => child? value key
    refine uniform_fixed fun child hc => ?_
    cases h with
    | object hm => exact lacks_of_get? hm hc
    | array hi =>
      obtain ⟨n, -, hn⟩ := Option.bind_eq_some_iff.mp hc
      exact hi child (List.mem_of_getElem? hn)
    | _ => cases hc
  | around place =>
    cases place with
    | here => exact uniform_none
    | member before name place after => exact uniform_get? h key
    | item before place after =>
      show Uniform c fun s => (position? key).bind fun n => (before ++ place.put s :: after)[n]?
      cases position? key with
      | none => exact uniform_none
      | some n => exact uniform_getElem? h n

theorem uniform_field? {datum : Datum} (h : datum.Lacks c) (name : String) :
    Uniform c fun s => field? (datum.put s) name := by
  cases datum with
  | fixed value =>
    show Uniform c fun _ => field? value name
    refine uniform_fixed fun field hf => ?_
    cases h with
    | object hm => exact lacks_of_get? hm hf
    | _ => cases hf
  | around place =>
    cases place with
    | here | item => exact uniform_none
    | member before key place after => exact uniform_get? h name

theorem uniform_walk {datum : Datum} (h : datum.Lacks c) (keys : List String) :
    Uniform c fun s => Scope.walk (datum.put s) keys := by
  induction keys generalizing datum with
  | nil => exact uniform_some h
  | cons key keys ih =>
    exact (uniform_child? h key).bind fun child hc => ih hc

theorem lacks_of_loopName? {index size : Nat} {name : String} {value : Json}
    (h : loopName? index size name = some value) : value.Lacks c := by
  unfold loopName? at h
  split at h <;> cases h
  · exact .number _
  · exact .bool _
  · exact .bool _

-- ---------------------------------------------------------------------------
-- Scopes
-- ---------------------------------------------------------------------------

/-- A scope over data with a place for a string. -/
inductive Frame where
  | root (data : Datum)
  | item (element : Datum) (index size : Nat) (outer : Frame)

namespace Frame

def put (s : String) : Frame → Scope
  | .root data => .root (data.put s)
  | .item element index size outer => .item (element.put s) index size (outer.put s)

def Lacks (c : Char) : Frame → Prop
  | .root data => data.Lacks c
  | .item element _ _ outer => element.Lacks c ∧ outer.Lacks c

theorem uniform_name? {frame : Frame} (h : frame.Lacks c) (name : String) :
    Uniform c fun s => (frame.put s).name? name := by
  induction frame with
  | root data => exact uniform_child? h name
  | item element index size outer ih =>
    obtain ⟨he, ho⟩ := h
    simp only [put, Scope.name?]
    cases hl : loopName? index size name with
    | some value => exact uniform_value (lacks_of_loopName? hl)
    | none =>
      obtain ⟨field, hf, hfield⟩ := uniform_field? he name
      simp only [hfield]
      cases field with
      | some field => exact uniform_some (hf field rfl)
      | none =>
        by_cases hd : name = "."
        · simp only [hd, if_true, Option.map_none]
          exact uniform_some he
        · simp only [hd, if_false, Option.map_none]
          exact ih ho

theorem uniform_resolve {frame : Frame} (h : frame.Lacks c) (path : List Char) :
    Uniform c fun s => (frame.put s).resolve path := by
  unfold Scope.resolve
  split
  · exact uniform_none
  · split
    · exact uniform_none
    · exact (uniform_name? h _).bind fun datum hp => uniform_walk hp _

end Frame

end Template

end Folio
