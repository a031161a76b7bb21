import Folio.Proofs.Json.NumberText
import Folio.Template.Render

/-!
# Values without braces

Every tag begins with a brace. Data whose strings hold no opening brace puts none into a
text, because whatever a path leads to is a part of the data or a value that a loop makes.
-/

namespace Folio

/-- No string in the value holds an opening brace. The keys of objects do not matter. -/
inductive Json.BraceFree : Json → Prop
  | null : BraceFree .null
  | bool (b : Bool) : BraceFree (.bool b)
  | number (n : Number) : BraceFree (.number n)
  | string {s : String} : '{' ∉ s.toList → BraceFree (.string s)
  | array {items : List Json} : (∀ item ∈ items, BraceFree item) → BraceFree (.array items)
  | object {members : List (String × Json)} :
      (∀ member ∈ members, BraceFree member.2) → BraceFree (.object members)

namespace Json

theorem notMem_intercalate {c : Char} {separator : List Char} (hs : c ∉ separator)
    {parts : List (List Char)} (hp : ∀ part ∈ parts, c ∉ part) :
    c ∉ List.intercalate separator parts := by
  induction parts with
  | nil => simp
  | cons part parts ih =>
    obtain ⟨hc, hr⟩ := List.forall_mem_cons.mp hp
    cases parts with
    | nil => simpa using hc
    | cons next parts =>
      rw [List.intercalate_cons_cons]
      simp only [List.mem_append, not_or]
      exact ⟨⟨hc, hs⟩, ih hr⟩

theorem BraceFree.looseText_notMem {value : Json} (h : value.BraceFree) :
    '{' ∉ value.looseText := by
  induction h with
  | null => decide
  | bool b => cases b <;> decide
  | number n =>
    intro hm
    exact absurd (n.isNumberText_looseText _ hm) (by decide)
  | string hs => simpa using hs
  | @array items _ ih =>
    rw [looseText_array, looseTexts_eq_map]
    refine notMem_intercalate (by decide) fun part hp => ?_
    obtain ⟨item, hi, rfl⟩ := List.mem_map.mp hp
    split
    · exact List.not_mem_nil
    · exact ih item hi
  | object _ _ =>
    rw [looseText_object]
    decide

theorem BraceFree.of_get? {members : Members} {key : String} {value : Json}
    (h : (Json.object members).BraceFree) (hg : members.get? key = some value) :
    value.BraceFree := by
  cases h with
  | object hm =>
    obtain ⟨before, after, rfl, _⟩ := List.lookup_eq_some_iff.mp hg
    exact hm (key, value) (by simp)

end Json

namespace Template

theorem display_notMem {value : Option Json} (h : ∀ v ∈ value, v.BraceFree) :
    '{' ∉ display value := by
  unfold display
  split
  · exact List.not_mem_nil
  · exact List.not_mem_nil
  · rename_i v _
    exact (h v rfl).looseText_notMem

/-- All data that a scope can see is without braces. -/
def Scope.BraceFree : Scope → Prop
  | .root data => data.BraceFree
  | .item element _ _ outer => element.BraceFree ∧ outer.BraceFree

theorem braceFree_of_child? {value child : Json} {key : String} (h : value.BraceFree)
    (hc : child? value key = some child) : child.BraceFree := by
  cases value with
  | object members => exact h.of_get? hc
  | array items =>
    obtain ⟨n, _, hn⟩ := Option.bind_eq_some_iff.mp hc
    cases h with
    | array hi => exact hi child (List.mem_of_getElem? hn)
  | null | bool | number | string => cases hc

theorem braceFree_of_loopName? {index size : Nat} {name : String} {value : Json}
    (h : loopName? index size name = some value) : value.BraceFree := by
  unfold loopName? at h
  split at h <;> cases h
  · exact .number _
  · exact .bool _
  · exact .bool _

namespace Scope

theorem BraceFree.of_name? {scope : Scope} {name : String} {value : Json} (h : scope.BraceFree)
    (hn : scope.name? name = some value) : value.BraceFree := by
  induction scope with
  | root data => exact braceFree_of_child? h hn
  | item element index size outer ih =>
    obtain ⟨he, ho⟩ := h
    unfold name? at hn
    split at hn
    · rename_i loop hl
      cases hn
      exact braceFree_of_loopName? hl
    · split at hn
      · rename_i field hf
        cases hn
        cases element with
        | object members => exact he.of_get? hf
        | _ => cases hf
      · split at hn
        · cases hn
          exact he
        · exact ih ho hn

theorem braceFree_of_walk {value found : Json} {keys : List String} (h : value.BraceFree)
    (hw : walk value keys = some found) : found.BraceFree := by
  induction keys generalizing value with
  | nil =>
    cases hw
    exact h
  | cons key keys ih =>
    simp only [walk, List.foldlM_cons, Option.bind_eq_bind] at hw
    obtain ⟨child, hc, hw⟩ := Option.bind_eq_some_iff.mp hw
    exact ih (braceFree_of_child? h hc) hw

theorem BraceFree.of_resolve {scope : Scope} {path : List Char} {value : Json}
    (h : scope.BraceFree) (hr : scope.resolve path = some value) : value.BraceFree := by
  unfold resolve at hr
  split at hr
  · cases hr
  · split at hr
    · cases hr
    · obtain ⟨first, hf, hw⟩ := Option.bind_eq_some_iff.mp hr
      exact braceFree_of_walk (h.of_name? hf) hw

end Scope

end Template

end Folio
