import Folio.Query.Statement

/-!
# Joined texts

The text of a statement is appended and joined from other texts. What adds up over appended
texts adds up over joined ones, with separators and keywords that have nothing to add. So a text
that is joined from others has their parts, each text's behind those of the texts before.
-/

namespace Folio.Query

-- ---------------------------------------------------------------------------
-- What adds up
-- ---------------------------------------------------------------------------

section
variable {β ι : Type} {R : String → List β → Prop} (hn : R "" [])
  (ha : ∀ {text more parts others}, R text parts → R more others →
    R (text ++ more) (parts ++ others))
  {separator keyword : String} {items : List ι} {text : ι → String} {parts : ι → List β}
include hn ha

theorem joined_adds_up (hs : R separator []) (h : ∀ item ∈ items, R (text item) (parts item)) :
    R (joined separator (items.map text)) (items.flatMap parts) := by
  induction items with
  | nil => exact hn
  | cons item items ih =>
    obtain ⟨hi, hr⟩ := List.forall_mem_cons.mp h
    cases items with
    | nil => simpa [joined] using hi
    | cons next items =>
      have hfront := ha hi hs
      rw [List.append_nil] at hfront
      exact ha hfront (ih hr)

theorem clauseSql_adds_up (hk : R keyword []) (hs : R separator [])
    (h : ∀ item ∈ items, R (text item) (parts item)) :
    R (clauseSql keyword separator (items.map text)) (items.flatMap parts) := by
  cases items with
  | nil => exact hn
  | cons item items =>
    have hclause := ha hk (joined_adds_up hn ha hs h)
    rwa [List.nil_append] at hclause

end

section
variable {P : String → Prop} (he : P "") (ha : ∀ {text more}, P text → P more → P (text ++ more))
  {separator keyword : String} {parts : List String}
include he ha

/-- What passes on to appended texts passes on to joined ones. -/
theorem joined_of_append (hs : P separator) (h : ∀ part ∈ parts, P part) :
    P (joined separator parts) := by
  have hj := @joined_adds_up Unit String (fun text _ => P text) he ha separator parts id
    (fun _ => []) hs h
  rwa [List.map_id] at hj

theorem clauseSql_of_append (hk : P keyword) (hs : P separator) (h : ∀ part ∈ parts, P part) :
    P (clauseSql keyword separator parts) := by
  unfold clauseSql
  split
  · exact he
  · exact ha hk (joined_of_append he ha hs h)

end

-- ---------------------------------------------------------------------------
-- Parts in turn
-- ---------------------------------------------------------------------------

/-- The parts stand in the text one behind the other, whatever stands between them. -/
def InTurn : List String → String → Prop
  | [], _ => True
  | part :: parts, text => ∃ before after, text = before ++ part ++ after ∧ InTurn parts after

section
variable {part text more : String} {parts others : List String}

theorem inTurn_self (text : String) : InTurn [text] text :=
  ⟨"", "", by simp, trivial⟩

theorem InTurn.behind (h : InTurn parts text) (front : String) :
    InTurn parts (front ++ text) := by
  cases parts with
  | nil => trivial
  | cons part parts =>
    obtain ⟨before, after, rfl, h⟩ := h
    exact ⟨front ++ before, after, by simp only [String.append_assoc], h⟩

theorem InTurn.append (h : InTurn parts text) (ho : InTurn others more) :
    InTurn (parts ++ others) (text ++ more) := by
  induction parts generalizing text with
  | nil => exact ho.behind text
  | cons part parts ih =>
    obtain ⟨before, after, rfl, h⟩ := h
    exact ⟨before, after ++ more, by simp only [String.append_assoc], ih h⟩

theorem InTurn.before (h : InTurn parts text) (rest : String) : InTurn parts (text ++ rest) := by
  have hrest : InTurn (parts ++ []) (text ++ rest) := h.append trivial
  rwa [List.append_nil] at hrest

theorem InTurn.exists_of_mem (h : InTurn parts text) (hp : part ∈ parts) :
    ∃ before after, text = before ++ part ++ after := by
  induction parts generalizing text with
  | nil => cases hp
  | cons first parts ih =>
    obtain ⟨before, after, rfl, h⟩ := h
    rcases List.mem_cons.mp hp with rfl | hp
    · exact ⟨before, after, rfl⟩
    · obtain ⟨between, behind, rfl⟩ := ih h hp
      exact ⟨before ++ first ++ between, behind, by simp only [String.append_assoc]⟩

end

section
variable {ι : Type} {separator keyword : String} {items : List ι} {parts : ι → List String}
  {text : ι → String} (h : ∀ item ∈ items, InTurn (parts item) (text item))
include h

theorem inTurn_joined : InTurn (items.flatMap parts) (joined separator (items.map text)) :=
  joined_adds_up (R := fun text parts => InTurn parts text) trivial InTurn.append trivial h

theorem inTurn_clauseSql :
    InTurn (items.flatMap parts) (clauseSql keyword separator (items.map text)) :=
  clauseSql_adds_up (R := fun text parts => InTurn parts text) trivial InTurn.append trivial
    trivial h

end

end Folio.Query
