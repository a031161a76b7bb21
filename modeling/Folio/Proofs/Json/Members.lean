import Folio.Proofs.Json.WellFormed
import Mathlib.Data.List.Induction

/-!
# Members by their keys

What a key finds is all that counts about members in key order: two lists of them that answer
every key alike are the same list.
-/

namespace Folio.Json.Members

variable {members other : Members}

theorem get?_eq_none_of_lt {key : String} (h : ∀ m ∈ members, key < m.1) :
    members.get? key = none := by
  induction members with
  | nil => rfl
  | cons m rest ih =>
    obtain ⟨hm, hr⟩ := List.forall_mem_cons.mp h
    rw [get?_cons, if_neg (by rintro rfl; exact String.lt_irrefl _ hm), ih hr]

theorem get?_head (m : String × Json) (rest : Members) : get? (m :: rest) m.1 = some m.2 := by
  rw [get?_cons, if_pos rfl]

theorem get?_map (f : String → Json → Json) (members : Members) (key : String) :
    get? (members.map fun m => (m.1, f m.1 m.2)) key = (members.get? key).map (f key) := by
  induction members with
  | nil => rfl
  | cons m rest ih =>
    rw [List.map_cons, get?_cons, get?_cons, ih]
    split
    · next hk => rw [hk, Option.map_some]
    · rfl

theorem ofList_concat (front : List (String × Json)) (m : String × Json) :
    ofList (front ++ [m]) = (ofList front).insert m.1 m.2 :=
  List.foldl_append

theorem get?_ofList_of_notMem {key : String} {listed : List (String × Json)}
    (h : key ∉ listed.map Prod.fst) : (ofList listed).get? key = none := by
  induction listed using List.reverseRecOn with
  | nil => rfl
  | append_singleton front m ih =>
    simp only [List.map_append, List.map_singleton, List.mem_append, List.mem_singleton,
      not_or] at h
    rw [ofList_concat, get?_insert, if_neg h.2, ih h.1]

/-- A key finds what stands with it last. -/
theorem get?_ofList_last {key : String} {value : Json} (front : List (String × Json))
    {back : List (String × Json)} (h : key ∉ back.map Prod.fst) :
    (ofList (front ++ (key, value) :: back)).get? key = some value := by
  induction back using List.reverseRecOn with
  | nil => rw [ofList_concat, get?_insert, if_pos rfl]
  | append_singleton back m ih =>
    simp only [List.map_append, List.map_singleton, List.mem_append, List.mem_singleton,
      not_or] at h
    rw [← List.cons_append, ← List.append_assoc, ofList_concat, get?_insert, if_neg h.2, ih h.1]

theorem Sorted.map (h : members.Sorted) (f : String → Json → Json) :
    Sorted (members.map fun m => (m.1, f m.1 m.2)) :=
  List.pairwise_map.mpr h

/-- The first keys of two lists that answer alike are not in this order. -/
theorem Sorted.not_lt_of_get? {m n : String × Json} {rest others : Members}
    (ho : Sorted (n :: others))
    (heq : ∀ key, get? (m :: rest) key = get? (n :: others) key) : ¬ m.1 < n.1 := by
  intro hlt
  have hnone : get? (n :: others) m.1 = none := by
    refine get?_eq_none_of_lt (List.forall_mem_cons.mpr ⟨hlt, fun later hl => ?_⟩)
    exact String.lt_trans hlt ((List.pairwise_cons.mp ho).1 later hl)
  simp [← heq, get?_head] at hnone

theorem Sorted.ext (h : members.Sorted) (ho : other.Sorted)
    (heq : ∀ key, members.get? key = other.get? key) : members = other := by
  induction members generalizing other with
  | nil =>
    cases other with
    | nil => rfl
    | cons n others => cases (heq n.1).trans (get?_head n others)
  | cons m rest ih =>
    cases other with
    | nil => cases (heq m.1).symm.trans (get?_head m rest)
    | cons n others =>
      have hkey : m.1 = n.1 := String.le_antisymm
        (String.not_lt.mp (h.not_lt_of_get? fun key => (heq key).symm))
        (String.not_lt.mp (ho.not_lt_of_get? heq))
      have hvalue : m.2 = n.2 := by
        have hv := heq m.1
        rwa [get?_head, hkey, get?_head, Option.some.injEq] at hv
      obtain ⟨hm, hr⟩ := List.pairwise_cons.mp h
      obtain ⟨hn, hothers⟩ := List.pairwise_cons.mp ho
      refine List.cons_eq_cons.mpr ⟨Prod.ext hkey hvalue, ih hr hothers fun key => ?_⟩
      have hk := heq key
      rw [get?_cons, get?_cons, ← hkey] at hk
      by_cases he : key = m.1
      · -- behind the first member its key stands nowhere
        subst he
        rw [get?_eq_none_of_lt hm, get?_eq_none_of_lt (hkey ▸ hn)]
      · rwa [if_neg he, if_neg he] at hk

end Folio.Json.Members
