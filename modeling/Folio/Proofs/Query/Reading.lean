import Folio.Proofs.Query.Pieces

/-!
# What a clause is read as

The text of the conditions of a statement is read as the tree of its fragments. A
fragment of two tests needs no parentheses: among conjuncts its tests are two more of
them, and among disjuncts its `AND` binds tighter than the `OR` around it.
-/

namespace Folio.Query

open Sql (Piece State Frame gathered chained chain?_eq_gathered read?)
open Database.Condition (parts parameters numbered chain?)

/-- The text behind `WHERE`. -/
def Statement.clause (statement : Statement) : String :=
  joined " AND " statement.groups

theorem parts_ne_nil (index : Nat) (fragment : Fragment) : parts index fragment ≠ [] := by
  cases fragment <;> exact List.cons_ne_nil _ _

theorem exists_chain? (join : Database.Condition → Database.Condition → Database.Condition)
    {conditions : List Database.Condition} (hne : conditions ≠ []) :
    ∃ condition, chain? join conditions = some condition := by
  obtain ⟨first, rest, rfl⟩ := List.exists_cons_of_ne_nil hne
  exact ⟨_, rfl⟩

theorem numbered_cons (index : Nat) (fragment : Fragment) (rest : List Fragment) :
    numbered index (fragment :: rest) =
      (index, fragment) :: numbered (index + fragment.params.length) rest := rfl

section
variable {outer : List Frame} {frame : Frame}

/-- A fragment adds its parts to the conjuncts in front of it. -/
theorem Fragment.run?_pieces (fragment : Fragment) (outer : List Frame) (frame : Frame)
    (index : Nat) :
    State.run? ⟨outer, frame, true⟩ (fragment.pieces index) =
      some ⟨outer, ⟨frame.disjuncts, gathered .and frame.conjuncts (parts index fragment)⟩,
        false⟩ := by
  cases fragment with
  | containsAll field texts =>
    cases texts with
    | nil => rfl
    | cons text texts =>
      have hne : (parameters index (text :: texts).length).map (Database.Condition.like field) ≠
          [] := by
        simp [parameters]
      obtain ⟨condition, hc⟩ := exists_chain? Database.Condition.and hne
      have hw : Frame.whole? ⟨none, gathered .and none
          ((parameters index (text :: texts).length).map (.like field))⟩ = some condition := by
        rw [← chain?_eq_gathered, hc]
        rfl
      have h := State.run?_enclosed (State.run?_chained (frame :: outer) .empty hne) hw
      have hp : parts index (.containsAll field (text :: texts)) =
          [(chain? .and ((parameters index (text :: texts).length).map (.like field))).getD
            (.known true)] := rfl
      rw [hp, hc]
      exact h
  | unfilled field => rfl
  | filled field => rfl
  | _ => exact State.run?_chained _ _ (parts_ne_nil _ _)

theorem run?_conjuncts {fragments : List Fragment} (hne : fragments ≠ []) (index : Nat) :
    State.run? ⟨outer, frame, true⟩ (joinedPieces .and index fragments) =
      some ⟨outer, ⟨frame.disjuncts, gathered .and frame.conjuncts
        ((numbered index fragments).flatMap fun (index, f) => parts index f)⟩, false⟩ := by
  induction fragments generalizing index frame with
  | nil => exact absurd rfl hne
  | cons fragment fragments ih =>
    -- The parts of a fragment join those in front of it whether it has one or two.
    cases fragments with
    | nil => simpa [joinedPieces, numbered] using fragment.run?_pieces outer frame index
    | cons other fragments =>
      have hf := fragment.run?_pieces outer frame index
      rw [joinedPieces, State.run?_append hf]
      rw [State.run?_cons ⟨outer, _, true⟩ rfl, ih (List.cons_ne_nil _ _)]
      · simp [numbered, gathered]
      · simp

theorem run?_disjuncts {fragments : List Fragment} (hne : fragments ≠ []) (outer : List Frame)
    (index : Nat) (before : Option Database.Condition) :
    ∃ inner, State.run? ⟨outer, ⟨before, none⟩, true⟩ (joinedPieces .or index fragments) =
        some ⟨outer, inner, false⟩ ∧
      inner.whole? = gathered .or before
        ((numbered index fragments).filterMap fun (index, f) => chain? .and (parts index f)) := by
  induction fragments generalizing index before with
  | nil => exact absurd rfl hne
  | cons fragment fragments ih =>
    obtain ⟨condition, hc⟩ := exists_chain? Database.Condition.and (parts_ne_nil index fragment)
    have hf := fragment.run?_pieces outer ⟨before, none⟩ index
    have hw : Frame.whole? ⟨before, gathered .and none (parts index fragment)⟩ =
        gathered .or before [condition] := by
      rw [← chain?_eq_gathered, hc]
      rfl
    cases fragments with
    | nil =>
      refine ⟨_, hf, ?_⟩
      simpa [numbered, hc] using hw
    | cons other fragments =>
      -- The `OR` completes the disjunct, whatever conjuncts it has.
      have hs : State.step? ⟨outer, ⟨before, gathered .and none (parts index fragment)⟩, false⟩
          .or = some ⟨outer, ⟨gathered .or before [condition], none⟩, true⟩ := by
        simp [State.step?, hw]
      obtain ⟨inner, hi, hv⟩ := ih (List.cons_ne_nil _ _) (index + fragment.params.length)
        (gathered .or before [condition])
      refine ⟨inner, ?_, ?_⟩
      · rw [joinedPieces, State.run?_append hf, State.run?_cons _ hs, hi]
        simp
      · rw [hv, ← Sql.gathered_append]
        rw [numbered_cons index, List.filterMap_cons]
        simp only [hc]
        rfl

end

-- ---------------------------------------------------------------------------
-- The clause
-- ---------------------------------------------------------------------------

theorem read?_of_isReadAs {text : String} {count : Nat} {pieces : List Piece}
    (h : IsReadAs text 0 count pieces) :
    read? text.toList = (State.start.run? pieces).bind State.finish? := by
  have hs : Sql.pieces? (Sql.tokens 0 text.toList) = some pieces := by
    simpa [scan] using h [] (by simp [Follows])
  rw [read?, hs]
  rfl

def all? (fragments : List (Nat × Fragment)) : Option Database.Condition :=
  chain? .and (fragments.flatMap fun (index, f) => parts index f)

def any? (fragments : List (Nat × Fragment)) : Option Database.Condition :=
  chain? .or (fragments.filterMap fun (index, f) => chain? .and (parts index f))

theorem ofStatement?_eq (statement : Statement) :
    Database.Condition.ofStatement? statement =
      chain? .and ((all? (numbered 0 statement.conjuncts)).toList ++
        (any? (numbered (statement.conjuncts.flatMap Fragment.params).length
          statement.disjuncts)).toList) := rfl

section
variable {fragments : List Fragment}

theorem run?_all (hne : fragments ≠ []) (frame : Frame) (index : Nat) :
    ∃ condition, all? (numbered index fragments) = some condition ∧
      State.run? ⟨[], frame, true⟩ (.opening :: joinedPieces .and index fragments ++ [.closing]) =
        some ⟨[], frame.conjoin condition, false⟩ := by
  have hparts : ((numbered index fragments).flatMap fun (index, f) => parts index f) ≠ [] := by
    obtain ⟨fragment, rest, rfl⟩ := List.exists_cons_of_ne_nil hne
    simp [numbered, parts_ne_nil]
  obtain ⟨condition, hc⟩ := exists_chain? Database.Condition.and hparts
  refine ⟨condition, hc, State.run?_enclosed (run?_conjuncts hne index) ?_⟩
  rw [chain?_eq_gathered] at hc
  simp [Frame.whole?, Frame.empty, hc, Sql.extended]

theorem run?_any (hne : fragments ≠ []) (frame : Frame) (index : Nat) :
    ∃ condition, any? (numbered index fragments) = some condition ∧
      State.run? ⟨[], frame, true⟩ (.opening :: joinedPieces .or index fragments ++ [.closing]) =
        some ⟨[], frame.conjoin condition, false⟩ := by
  obtain ⟨inner, hi, hw⟩ := run?_disjuncts hne [frame] index none
  have hparts : ((numbered index fragments).filterMap fun (index, f) =>
      chain? .and (parts index f)) ≠ [] := by
    obtain ⟨fragment, rest, rfl⟩ := List.exists_cons_of_ne_nil hne
    obtain ⟨condition, hc⟩ := exists_chain? Database.Condition.and (parts_ne_nil index fragment)
    simp [numbered, hc]
  obtain ⟨condition, hc⟩ := exists_chain? Database.Condition.or hparts
  refine ⟨condition, hc, State.run?_enclosed hi ?_⟩
  rw [hw, ← chain?_eq_gathered, hc]

def groupSql (connective : String) (fragments : List Fragment) : String :=
  "(" ++ joined connective (fragments.map Fragment.sql) ++ ")"

theorem isReadAs_group (hne : fragments ≠ []) (hf : ∀ fragment ∈ fragments, fragment.Readable)
    {connective : String} {piece : Piece} (hc : IsConnective connective piece) (index : Nat) :
    IsReadAs (groupSql connective fragments) index (fragments.flatMap Fragment.params).length
      (.opening :: joinedPieces piece index fragments ++ [.closing]) :=
  (isReadAs_joined hc _ hne (fun fragment hm => Fragment.isReadAs (hf fragment hm)) index).enclosed

theorem grouped_eq (hne : fragments ≠ []) (connective : String) :
    grouped connective fragments = [groupSql connective fragments] := by
  obtain ⟨fragment, rest, rfl⟩ := List.exists_cons_of_ne_nil hne
  rfl

end

def Statement.Readable (statement : Statement) : Prop :=
  ∀ fragment ∈ statement.conjuncts ++ statement.disjuncts, fragment.Readable

/-- The tree that a database has for a statement is what the text of its conditions means. -/
theorem Statement.Readable.read?_clause {statement : Statement} (h : statement.Readable) :
    read? statement.clause.toList = Database.Condition.ofStatement? statement := by
  have hall : ∀ fragment ∈ statement.conjuncts, fragment.Readable :=
    fun fragment hm => h fragment (List.mem_append_left _ hm)
  have hany : ∀ fragment ∈ statement.disjuncts, fragment.Readable :=
    fun fragment hm => h fragment (List.mem_append_right _ hm)
  rw [ofStatement?_eq]
  unfold clause groups
  by_cases hc : statement.conjuncts = []
  · by_cases hd : statement.disjuncts = []
    · have hempty : IsReadAs "" 0 0 [] := by
        intro rest _
        simp
      rw [hc, hd]
      exact read?_of_isReadAs hempty
    · obtain ⟨any, ha, hrun⟩ := run?_any hd .empty 0
      rw [hc, grouped_eq hd]
      simp only [List.flatMap_nil, List.length_nil, ha]
      rw [show joined " AND " (grouped " AND " [] ++ [groupSql " OR " statement.disjuncts]) =
          groupSql " OR " statement.disjuncts from rfl,
        read?_of_isReadAs (isReadAs_group hd hany isConnective_or 0)]
      unfold State.start
      rw [hrun]
      rfl
  · obtain ⟨all, hl, hfirst⟩ := run?_all hc .empty 0
    have htext := isReadAs_group hc hall isConnective_and 0
    rw [grouped_eq hc, hl]
    by_cases hd : statement.disjuncts = []
    · rw [hd]
      rw [show joined " AND " ([groupSql " AND " statement.conjuncts] ++ grouped " OR " []) =
          groupSql " AND " statement.conjuncts from rfl, read?_of_isReadAs htext]
      unfold State.start
      rw [hfirst]
      rfl
    · obtain ⟨any, ha, hsecond⟩ := run?_any hd (Frame.empty.conjoin all)
        (statement.conjuncts.flatMap Fragment.params).length
      have hboth := htext.connected isConnective_and
        (isReadAs_group hd hany isConnective_or _)
      rw [Nat.zero_add] at hboth
      rw [grouped_eq hd, ha]
      rw [show joined " AND " ([groupSql " AND " statement.conjuncts] ++
          [groupSql " OR " statement.disjuncts]) =
            groupSql " AND " statement.conjuncts ++ " AND " ++
              groupSql " OR " statement.disjuncts from rfl, read?_of_isReadAs hboth]
      unfold State.start
      rw [State.run?_append hfirst, State.run?_cons ⟨[], _, true⟩ rfl, hsecond]
      rfl

end Folio.Query
