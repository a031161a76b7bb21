import Folio.Json.Number

/-!
# JSON data

Objects list their members in increasing key order, and no key twice.
`Members.insert` keeps that order, so data built with it has one form.
-/

namespace Folio

inductive Json where
  | null
  | bool (b : Bool)
  | number (n : Number)
  | string (s : String)
  | array (items : List Json)
  | object (members : List (String × Json))

namespace Json

instance : Inhabited Json := ⟨.null⟩

abbrev Members := List (String × Json)

def Members.get? (members : Members) (key : String) : Option Json :=
  List.lookup key members

/-- Sets the value of a key; an older value of the key is gone. -/
def Members.insert : Members → String → Json → Members
  | [], key, value => [(key, value)]
  | (k, v) :: rest, key, value =>
    if key < k then (key, value) :: (k, v) :: rest
    else if key = k then (key, value) :: rest
    else (k, v) :: Members.insert rest key value

/-- Of members with one key the last counts. -/
def Members.ofList (members : List (String × Json)) : Members :=
  members.foldl (fun sorted member => sorted.insert member.1 member.2) []

def int (n : Int) : Json :=
  .number (.int n)

def isNull : Json → Bool
  | .null => true
  | _ => false

theorem Members.get?_cons (k key : String) (v : Json) (rest : Members) :
    Members.get? ((k, v) :: rest) key = if key = k then some v else rest.get? key := by
  show (match key == k with | true => some v | false => List.lookup key rest) = _
  by_cases h : key = k
  · rw [if_pos h, beq_iff_eq.mpr h]
  · rw [if_neg h, beq_eq_false_iff_ne.mpr h]
    rfl

theorem Members.get?_insert (members : Members) (key other : String) (value : Json) :
    (members.insert key value).get? other =
      if other = key then some value else members.get? other := by
  induction members with
  | nil => rw [Members.insert, get?_cons]
  | cons member rest ih =>
    obtain ⟨k, v⟩ := member
    rw [Members.insert]
    split
    · rw [get?_cons]
    · split
      · next _ hk =>
        subst hk
        simp only [get?_cons]
        split <;> rfl
      · next _ hk =>
        simp only [get?_cons, ih]
        by_cases ho : other = k
        · simp [ho, Ne.symm hk]
        · simp [ho]

end Json

end Folio
