import Folio.Database.Condition
import Folio.Proofs.Sql.Token

/-!
# Reading conditions

A reader of conditions that knows nothing of how they were written. Tests on fields
are read first, and what is left is read with a stack of open parentheses. Within
one pair of them conjunctions are complete before disjunctions, and both lean to
the left.
-/

namespace Folio.Sql

open Database (Condition Operand)
open Query (Field)

-- ---------------------------------------------------------------------------
-- Tests
-- ---------------------------------------------------------------------------

/-- A column, or a path into one. What follows is left. -/
def field? : List Token → Option (Field × List Token)
  | .word name :: .opening :: .word base :: .comma :: .literal path :: .closing :: rest =>
    if name = "json_extract" then
      match path.toList with
      | '$' :: '.' :: steps => some (.path base (.ofList steps), rest)
      | _ => none
    else none
  | .word name :: rest => some (.column name, rest)
  | _ => none

def operand? : Token → Option Operand
  | .placeholder index => some (.parameter index)
  | .literal text => if text.isEmpty then some .emptyText else none
  | _ => none

def operands? : List Token → Option (List Operand × List Token)
  | token :: .closing :: rest => (operand? token).map fun operand => ([operand], rest)
  | token :: .comma :: rest =>
    match operand? token, operands? rest with
    | some operand, some (operands, rest) => some (operand :: operands, rest)
    | _, _ => none
  | _ => none

def test? (field : Field) : List Token → Option (Condition × List Token)
  | .keyword .is :: .keyword .null :: rest => some (.isNull field, rest)
  | .keyword .is :: .keyword .not :: .keyword .null :: rest => some (.isNotNull field, rest)
  | .comparison comparison :: token :: rest =>
    (operand? token).map fun operand => (.compare field comparison operand, rest)
  | .keyword .like :: token :: rest =>
    (operand? token).map fun operand => (.like field operand, rest)
  | .keyword .among :: .opening :: rest =>
    (operands? rest).map fun (operands, rest) => (.within field operands, rest)
  | .keyword .not :: .keyword .among :: .opening :: rest =>
    (operands? rest).map fun (operands, rest) => (.not (.within field operands), rest)
  | _ => none

/-- The words that are numbers and not columns when they are compared with each other. -/
def digits : List String := ["0", "1"]

def atom? : List Token → Option (Condition × List Token)
  -- `1=1` and `1=0` stand where a list has no operands.
  | .word left :: .comparison .equal :: .word right :: rest =>
    if left ∈ digits ∧ right ∈ digits then some (.known (left = right), rest) else none
  | text =>
    match field? text with
    | some (field, rest) => test? field rest
    | none => none

theorem length_lt_of_field? {text more : List Token} {field : Field}
    (h : field? text = some (field, more)) : more.length < text.length := by
  unfold field? at h
  split at h
  · split at h
    · split at h <;> cases h
      simp only [List.length_cons]
      omega
    · cases h
  · cases h
    simp
  · cases h

theorem length_lt_of_operands? {text more : List Token} {operands : List Operand}
    (h : operands? text = some (operands, more)) : more.length < text.length := by
  fun_induction operands? text generalizing operands more with
  | case1 token rest =>
    obtain ⟨operand, _, he⟩ := Option.map_eq_some_iff.mp h
    cases he
    simp only [List.length_cons]
    omega
  | case2 token rest operand others after hr _ ih =>
    cases h
    have := ih hr
    simp only [List.length_cons]
    omega
  | case3 => cases h
  | case4 => cases h

theorem length_lt_of_test? {field : Field} {text more : List Token} {condition : Condition}
    (h : test? field text = some (condition, more)) : more.length < text.length := by
  unfold test? at h
  split at h
  · cases h
    simp only [List.length_cons]
    omega
  · cases h
    simp only [List.length_cons]
    omega
  · obtain ⟨operand, _, he⟩ := Option.map_eq_some_iff.mp h
    cases he
    simp only [List.length_cons]
    omega
  · obtain ⟨operand, _, he⟩ := Option.map_eq_some_iff.mp h
    cases he
    simp only [List.length_cons]
    omega
  · obtain ⟨⟨operands, rest⟩, ho, he⟩ := Option.map_eq_some_iff.mp h
    cases he
    have := length_lt_of_operands? ho
    simp only [List.length_cons]
    omega
  · obtain ⟨⟨operands, rest⟩, ho, he⟩ := Option.map_eq_some_iff.mp h
    cases he
    have := length_lt_of_operands? ho
    simp only [List.length_cons]
    omega
  · cases h

theorem length_lt_of_atom? {text more : List Token} {condition : Condition}
    (h : atom? text = some (condition, more)) : more.length < text.length := by
  unfold atom? at h
  split at h
  · split at h <;> cases h
    simp only [List.length_cons]
    omega
  · split at h
    · rename_i field rest hf
      have := length_lt_of_field? hf
      have := length_lt_of_test? h
      omega
    · cases h

-- ---------------------------------------------------------------------------
-- Tests and connectives
-- ---------------------------------------------------------------------------

inductive Piece where
  | test (condition : Condition)
  | opening
  | closing
  | and
  | or

/-- Parentheses that belong to a test are not pieces of their own. -/
def pieces? (text : List Token) : Option (List Piece) :=
  match text with
  | [] => some []
  | .opening :: rest => (pieces? rest).map (.opening :: ·)
  | .closing :: rest => (pieces? rest).map (.closing :: ·)
  | .keyword .and :: rest => (pieces? rest).map (.and :: ·)
  | .keyword .or :: rest => (pieces? rest).map (.or :: ·)
  | text =>
    match _h : atom? text with
    | some (condition, rest) => (pieces? rest).map (.test condition :: ·)
    | none => none
termination_by text.length
decreasing_by
  all_goals try simp
  exact length_lt_of_atom? _h

section
variable (rest : List Token)

@[simp] theorem pieces?_nil : pieces? [] = some [] := by
  rw [pieces?]

@[simp] theorem pieces?_opening :
    pieces? (.opening :: rest) = (pieces? rest).map (.opening :: ·) := by
  rw [pieces?]

@[simp] theorem pieces?_closing :
    pieces? (.closing :: rest) = (pieces? rest).map (.closing :: ·) := by
  rw [pieces?]

@[simp] theorem pieces?_and :
    pieces? (.keyword .and :: rest) = (pieces? rest).map (.and :: ·) := by
  rw [pieces?]

@[simp] theorem pieces?_or :
    pieces? (.keyword .or :: rest) = (pieces? rest).map (.or :: ·) := by
  rw [pieces?]

theorem pieces?_word {name : String} {rest more : List Token} {condition : Condition}
    (h : atom? (.word name :: rest) = some (condition, more)) :
    pieces? (.word name :: rest) = (pieces? more).map (.test condition :: ·) := by
  rw [pieces?]
  · split
    · case h_1 found after hf =>
      rw [h, Option.some.injEq, Prod.mk.injEq] at hf
      rw [hf.1, hf.2]
    · case h_2 hf =>
      rw [h] at hf
      cases hf
  all_goals simp

end

-- ---------------------------------------------------------------------------
-- Precedence
-- ---------------------------------------------------------------------------

/-- What was read within a parenthesis: the disjuncts that are complete, and the
conjuncts of the one that is not. -/
structure Frame where
  disjuncts : Option Condition
  conjuncts : Option Condition

/-- The frames around the one that is being read, and whether a condition has to follow. -/
structure State where
  outer : List Frame
  here : Frame
  awaiting : Bool

def Frame.empty : Frame := ⟨none, none⟩

def State.start : State := ⟨[], .empty, true⟩

def extended (join : Condition → Condition → Condition) (before : Option Condition)
    (condition : Condition) : Condition :=
  match before with
  | none => condition
  | some left => join left condition

def Frame.whole? (frame : Frame) : Option Condition :=
  frame.conjuncts.map (extended .or frame.disjuncts)

def Frame.conjoin (frame : Frame) (condition : Condition) : Frame :=
  { frame with conjuncts := some (extended .and frame.conjuncts condition) }

def State.step? (state : State) (piece : Piece) : Option State :=
  match state.awaiting, piece with
  | true, .test condition => some ⟨state.outer, state.here.conjoin condition, false⟩
  | true, .opening => some ⟨state.here :: state.outer, .empty, true⟩
  | false, .closing =>
    match state.outer, state.here.whole? with
    | frame :: outer, some condition => some ⟨outer, frame.conjoin condition, false⟩
    | _, _ => none
  -- The disjunct stays open behind `AND` and is complete in front of `OR`.
  | false, .and => some { state with awaiting := true }
  | false, .or => some ⟨state.outer, ⟨state.here.whole?, none⟩, true⟩
  | _, _ => none

/-- All parentheses have to be closed, and no connective may be left without a condition. -/
def State.finish? (state : State) : Option Condition :=
  match state with
  | ⟨[], frame, false⟩ => frame.whole?
  | _ => none

def State.run? (state : State) (pieces : List Piece) : Option State :=
  pieces.foldlM State.step? state

def read? (text : List Char) : Option Condition := do
  let pieces ← pieces? (tokens 0 text)
  let state ← State.start.run? pieces
  state.finish?

-- ---------------------------------------------------------------------------
-- Runs
-- ---------------------------------------------------------------------------

/-- Conditions one behind the other, behind those that were read before. -/
def gathered (join : Condition → Condition → Condition) (before : Option Condition)
    (conditions : List Condition) : Option Condition :=
  conditions.foldl (fun before condition => some (extended join before condition)) before

def chained (connective : Piece) (tests : List Condition) : List Piece :=
  (tests.map Piece.test).intersperse connective

theorem gathered_append (join : Condition → Condition → Condition) (before : Option Condition)
    (conditions others : List Condition) :
    gathered join before (conditions ++ others) =
      gathered join (gathered join before conditions) others := by
  simp [gathered]

theorem chain?_eq_gathered (join : Condition → Condition → Condition)
    (conditions : List Condition) :
    Condition.chain? join conditions = gathered join none conditions := by
  have hsome (before : Condition) (others : List Condition) :
      some (others.foldl join before) = gathered join (some before) others := by
    induction others generalizing before with
    | nil => rfl
    | cons condition others ih => exact ih (join before condition)
  cases conditions with
  | nil => rfl
  | cons condition conditions => exact hsome condition conditions

section
variable {state next : State} {outer : List Frame} {frame inner : Frame} {pieces : List Piece}

theorem State.run?_append (h : state.run? pieces = some next) (others : List Piece) :
    state.run? (pieces ++ others) = next.run? others := by
  unfold run? at h ⊢
  rw [List.foldlM_append, h]
  rfl

theorem State.run?_cons (next : State) {piece : Piece} (h : state.step? piece = some next)
    (others : List Piece) : state.run? (piece :: others) = next.run? others := by
  unfold run?
  rw [List.foldlM_cons, h]
  rfl

theorem State.run?_chained (outer : List Frame) (frame : Frame) {tests : List Condition}
    (hne : tests ≠ []) :
    run? ⟨outer, frame, true⟩ (chained .and tests) =
      some ⟨outer, ⟨frame.disjuncts, gathered .and frame.conjuncts tests⟩, false⟩ := by
  induction tests generalizing frame with
  | nil => exact absurd rfl hne
  | cons test tests ih =>
    cases tests with
    | nil => rfl
    | cons other tests =>
      exact ih _ (List.cons_ne_nil _ _)

/-- What stands in parentheses is one condition around them. -/
theorem State.run?_enclosed {condition : Condition}
    (h : run? ⟨frame :: outer, .empty, true⟩ pieces = some ⟨frame :: outer, inner, false⟩)
    (hw : inner.whole? = some condition) :
    run? ⟨outer, frame, true⟩ (.opening :: pieces ++ [.closing]) =
      some ⟨outer, frame.conjoin condition, false⟩ := by
  rw [List.cons_append, run?_cons ⟨frame :: outer, .empty, true⟩ rfl, run?_append h]
  have hs : step? ⟨frame :: outer, inner, false⟩ .closing =
      some ⟨outer, frame.conjoin condition, false⟩ := by
    simp [step?, hw]
  rw [run?_cons _ hs]
  rfl

end

end Folio.Sql
