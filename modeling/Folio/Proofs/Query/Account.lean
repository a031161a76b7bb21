import Folio.Proofs.Query.Joined
import Folio.Proofs.Query.Plain
import Mathlib.Data.List.Basic

/-!
# Nothing is dropped

A query string asks for two lists of conditions and for a list of sort keys. Each element
of them is a part of the statement or has a message, and a text or a list that cannot be
read has one. Parts and messages stand in the order of what was asked.
-/

namespace Folio.Query

-- ---------------------------------------------------------------------------
-- Elements
-- ---------------------------------------------------------------------------

/-- What becomes of an element: it is read and compiled, and either may fail. -/
inductive Fate (β : Type) where
  | reached (part : β)
  | unread (rejection : Rejection)
  | uncompiled (issue : Issue)

section
variable {α β : Type}

def Fate.part? : Fate β → Option β
  | .reached part => some part
  | _ => none

def Fate.rejection? : Fate β → Option Rejection
  | .unread rejection => some rejection
  | _ => none

def Fate.issue? : Fate β → Option Issue
  | .uncompiled issue => some issue
  | _ => none

variable (read : Json → Except Json.Mismatch α) (reject : Nat → Json.Mismatch → Rejection)
  (compile : α → Except Issue β)

def Fate.of : Except Rejection α → Fate β
  | .error rejection => .unread rejection
  | .ok item =>
    match compile item with
    | .ok part => .reached part
    | .error issue => .uncompiled issue

def fates (elements : List Json) : List (Fate β) :=
  (elements.mapIdx fun index element => (read element).mapError (reject index)).map
    (.of compile)

theorem Fate.part?_of (attempt : Except Rejection α) :
    (of compile attempt).part? = attempt.toOption.bind fun item => (compile item).toOption := by
  cases attempt with
  | error rejection => rfl
  | ok item => cases hc : compile item <;> simp [of, part?, Except.toOption, hc]

theorem Fate.rejection?_of (attempt : Except Rejection α) :
    (of compile attempt).rejection? =
      match attempt with
      | .ok _ => none
      | .error rejection => some rejection := by
  cases attempt with
  | error rejection => rfl
  | ok item => cases hc : compile item <;> simp [of, rejection?, hc]

theorem Fate.issue?_of (attempt : Except Rejection α) :
    (of compile attempt).issue? = attempt.toOption.bind fun item => issueOf (compile item) := by
  cases attempt with
  | error rejection => rfl
  | ok item => cases hc : compile item <;> simp [of, issue?, issueOf, Except.toOption, hc]

theorem Fate.length_eq (list : List (Fate β)) :
    (list.filterMap part?).length + (list.filterMap rejection?).length +
      (list.filterMap issue?).length = list.length := by
  induction list with
  | nil => rfl
  | cons fate list ih =>
    cases fate <;>
      simp only [List.filterMap_cons, part?, rejection?, issue?, List.length_cons] <;> omega

theorem length_fates (elements : List Json) :
    (fates read reject compile elements).length = elements.length := by
  rw [fates, List.length_map, List.length_mapIdx]

theorem Fate.all_reached {list : List (Fate β)} :
    (list.filterMap rejection? = [] ∧ list.filterMap issue? = []) ↔
      ∀ fate ∈ list, ∃ part, fate = .reached part := by
  rw [List.filterMap_eq_nil_iff, List.filterMap_eq_nil_iff, ← forall₂_and]
  refine forall₂_congr fun fate _ => ?_
  cases fate <;> simp [rejection?, issue?]

-- ---------------------------------------------------------------------------
-- Lists of elements
-- ---------------------------------------------------------------------------

/-- The elements of a list that was asked for. A list that is refused has none. -/
def elements (asked : Except Rejection (List Json)) : List Json :=
  asked.toOption.getD []

def refusals (asked : Except Rejection α) : List Rejection :=
  match asked with
  | .ok _ => []
  | .error rejection => [rejection]

theorem refusals_eq_nil {asked : Except Rejection α} :
    refusals asked = [] ↔ ∃ value, asked = .ok value := by
  cases asked <;> simp [refusals]

variable (asked : Except Rejection (List Json))

def Sorted.ofAsked : Sorted α :=
  match asked with
  | .ok items => .ofItems read reject items
  | .error rejection => ⟨[], [rejection]⟩

theorem rejected_ofAsked :
    (Sorted.ofAsked read reject asked).rejected =
      refusals asked ++
        (fates read reject compile (elements asked)).filterMap Fate.rejection? := by
  cases asked with
  | error rejection => rfl
  | ok items =>
    simp only [fates, List.filterMap_map, Function.comp_def, Fate.rejection?_of]
    rfl

theorem compiled_ofAsked :
    compiled compile (Sorted.ofAsked read reject asked).kept =
      (fates read reject compile (elements asked)).filterMap Fate.part? := by
  cases asked with
  | error rejection => rfl
  | ok items =>
    simp only [fates, List.filterMap_map, Function.comp_def, Fate.part?_of]
    exact List.filterMap_filterMap

theorem issues_ofAsked :
    issues compile (Sorted.ofAsked read reject asked).kept =
      (fates read reject compile (elements asked)).filterMap Fate.issue? := by
  cases asked with
  | error rejection => rfl
  | ok items =>
    simp only [fates, List.filterMap_map, Function.comp_def, Fate.issue?_of]
    exact List.filterMap_filterMap

end

-- ---------------------------------------------------------------------------
-- What a query string asks for
-- ---------------------------------------------------------------------------

def Clause.asked (clause : Clause) : Json → Except Rejection (List Json)
  | .null => .ok []
  | .array items => .ok items
  | _ => .error (.conditions clause)

namespace Parameters

variable (parameters : Parameters)

/-- What `where` has for the two lists of conditions. -/
def askedGroup : Except Rejection (Clause → Json) :=
  match parameters.get? "where" with
  | none => .ok fun _ => .null
  | some text =>
    match groupSchema.parse text with
    | .ok (conjuncts, disjuncts, ()) =>
      .ok fun
        | .conjuncts => conjuncts.getD .null
        | .disjuncts => disjuncts.getD .null
    | .error failure => .error (.group failure)

def asked (clause : Clause) : Except Rejection (List Json) :=
  match parameters.askedGroup with
  | .ok lists => clause.asked (lists clause)
  | .error _ => .ok []

def askedOrder : Except Rejection (List Json) :=
  match parameters.get? "sort" with
  | none => .ok []
  | some text =>
    match Json.Schema.parse (.list .any) text with
    | .ok entries => .ok entries
    | .error failure => .error (.sort failure)

def fates (clause : Clause) : List (Fate Fragment) :=
  Query.fates Condition.decode (Rejection.condition clause) Condition.compile
    (elements (parameters.asked clause))

def orderFates : List (Fate OrderTerm) :=
  Query.fates SortKey.decode Rejection.sortKey SortKey.compile (elements parameters.askedOrder)

/-- The tests that the plain parameters ask for. -/
def plainTests : List Fragment :=
  plainFields.filterMap fun field =>
    (parameters.get? field).map fun value => .compare (.column field) .equal (.string value)

/-- Everything that was asked for is in the statement. -/
structure Honoured : Prop where
  group : ∃ lists, parameters.askedGroup = .ok lists
  lists : ∀ clause, ∃ items, parameters.asked clause = .ok items
  order : ∃ items, parameters.askedOrder = .ok items
  conditions : ∀ clause, ∀ fate ∈ parameters.fates clause, ∃ fragment, fate = .reached fragment
  terms : ∀ fate ∈ parameters.orderFates, ∃ term, fate = .reached term

-- ---------------------------------------------------------------------------
-- Reading the lists
-- ---------------------------------------------------------------------------

/-- The conditions of a list of `where`, read one by one. -/
def readClause (clause : Clause) : Sorted Condition :=
  .ofAsked Condition.decode (Rejection.condition clause) (parameters.asked clause)

theorem read_eq_ofAsked (clause : Clause) (json : Json) :
    clause.read json =
      .ofAsked Condition.decode (Rejection.condition clause) (clause.asked json) := by
  cases json <;> rfl

theorem sort_eq_ofAsked :
    parameters.sort = .ofAsked SortKey.decode Rejection.sortKey parameters.askedOrder := by
  unfold Parameters.sort askedOrder
  cases parameters.get? "sort" with
  | none => rfl
  | some text =>
    simp only
    cases Json.Schema.parse (.list .any) text <;> rfl

theorem group_eq :
    (parameters.group.1.map Group.conjuncts).getD [] =
        (parameters.readClause .conjuncts).kept ∧
      (parameters.group.1.map Group.disjuncts).getD [] =
        (parameters.readClause .disjuncts).kept ∧
      (parameters.group.1.map Group.rejected).getD [] =
        ((parameters.readClause .conjuncts).rejected ++
          (parameters.readClause .disjuncts).rejected).map Rejection.message ∧
      parameters.group.2 = refusals parameters.askedGroup := by
  unfold readClause asked askedGroup Parameters.group
  cases parameters.get? "where" with
  | none => exact ⟨rfl, rfl, rfl, rfl⟩
  | some text =>
    simp only [Group.parse]
    cases groupSchema.parse text with
    | error failure => exact ⟨rfl, rfl, rfl, rfl⟩
    | ok fields =>
      obtain ⟨conjuncts, disjuncts, ⟨⟩⟩ := fields
      simp only [← read_eq_ofAsked]
      exact ⟨rfl, rfl, rfl, rfl⟩

end Parameters

-- ---------------------------------------------------------------------------
-- The compiled query
-- ---------------------------------------------------------------------------

/-- The tests and the sort keys of a statement stand in its text in their order. -/
theorem Statement.inTurn_sql (statement : Statement) :
    InTurn ((statement.conjuncts ++ statement.disjuncts).map Fragment.sql ++
      statement.order.map OrderTerm.sql) statement.sql := by
  have hgroups : InTurn ((statement.conjuncts ++ statement.disjuncts).map Fragment.sql)
      (clauseSql " WHERE " " AND " statement.groups) := by
    rw [groups_eq, List.map_eq_flatMap, List.flatMap_append, ← flatMap_groupings]
    refine inTurn_clauseSql fun group _ => ?_
    exact ((inTurn_joined fun fragment _ => inTurn_self fragment.sql).behind "(").before ")"
  have horder : InTurn (statement.order.flatMap fun term => [term.sql])
      (clauseSql " ORDER BY " ", " (statement.order.map OrderTerm.sql)) :=
    inTurn_clauseSql fun term _ => inTurn_self term.sql
  rw [← List.map_eq_flatMap] at horder
  exact (((hgroups.behind ("SELECT * FROM " ++ statement.table)).append horder).before _).before _

section
variable (parameters : Parameters) (maxLimit : Int)

theorem compiled_plainConditions :
    compiled Condition.compile parameters.plainConditions = parameters.plainTests := by
  unfold compiled Parameters.plainConditions Parameters.plainTests
  rw [List.filterMap_filterMap]
  refine List.filterMap_congr fun field hf => ?_
  cases parameters.get? field with
  | none => rfl
  | some value => simp [compile_plainCondition hf, Except.toOption]

theorem issues_plainConditions : issues Condition.compile parameters.plainConditions = [] := by
  refine List.filterMap_eq_nil_iff.mpr fun condition hm => ?_
  obtain ⟨field, hf, value, -, rfl⟩ := mem_plainConditions.mp hm
  rw [compile_plainCondition hf, issueOf]

theorem rejected_withConjuncts (group : Option Group) (conditions : List Condition) :
    ((withConjuncts group conditions).map Group.rejected).getD [] =
      (group.map Group.rejected).getD [] := by
  unfold withConjuncts
  split
  · rfl
  · cases group <;> rfl

theorem CompiledQuery.ensureValid_eq_ok {query : CompiledQuery} :
    query.ensureValid = .ok query ↔ query.errors = [] := by
  unfold ensureValid
  cases query.errors <;> simp

/-- What compiles of the lists that were asked for, in their order. -/
theorem Filter.parts_ofParameters (table : String) :
    let statement := (ofParameters parameters maxLimit).statement table
    statement.conjuncts =
        (parameters.fates .conjuncts).filterMap Fate.part? ++ parameters.plainTests ∧
      statement.disjuncts = (parameters.fates .disjuncts).filterMap Fate.part? ∧
      statement.order = parameters.orderFates.filterMap Fate.part? := by
  obtain ⟨hconjuncts, hdisjuncts, -, -⟩ := parameters.group_eq
  refine ⟨?_, ?_, ?_⟩
  · show compiled Condition.compile (ofParameters parameters maxLimit).conjuncts = _
    rw [conjuncts_ofParameters, hconjuncts, compiled_append, compiled_plainConditions]
    exact congrArg (· ++ _) (compiled_ofAsked ..)
  · show compiled Condition.compile (ofParameters parameters maxLimit).disjuncts = _
    rw [disjuncts_ofParameters, hdisjuncts]
    exact compiled_ofAsked ..
  · show compiled SortKey.compile parameters.sort.kept = _
    rw [parameters.sort_eq_ofAsked]
    exact compiled_ofAsked ..

theorem Filter.issues_ofParameters :
    (ofParameters parameters maxLimit).issues =
      (parameters.fates .conjuncts).filterMap Fate.issue? ++
        (parameters.fates .disjuncts).filterMap Fate.issue? ++
        parameters.orderFates.filterMap Fate.issue? := by
  obtain ⟨hconjuncts, hdisjuncts, -, -⟩ := parameters.group_eq
  have hsort : (ofParameters parameters maxLimit).sort = parameters.sort.kept := rfl
  unfold issues
  rw [conjuncts_ofParameters, hconjuncts, disjuncts_ofParameters, hdisjuncts, hsort,
    parameters.sort_eq_ofAsked, Query.issues, List.filterMap_append]
  rw [show List.filterMap _ parameters.plainConditions = [] from issues_plainConditions parameters,
    List.append_nil]
  exact congrArg₂ (· ++ ·) (congrArg₂ (· ++ ·) (issues_ofAsked ..) (issues_ofAsked ..))
    (issues_ofAsked ..)

theorem Filter.errors_ofParameters :
    (ofParameters parameters maxLimit).errors =
      (refusals parameters.askedGroup ++
          (refusals parameters.askedOrder ++ parameters.orderFates.filterMap Fate.rejection?) ++
          (refusals (parameters.asked .conjuncts) ++
            (parameters.fates .conjuncts).filterMap Fate.rejection?) ++
          (refusals (parameters.asked .disjuncts) ++
            (parameters.fates .disjuncts).filterMap Fate.rejection?)).map Rejection.message ++
        ((parameters.fates .conjuncts).filterMap Fate.issue? ++
          (parameters.fates .disjuncts).filterMap Fate.issue? ++
          parameters.orderFates.filterMap Fate.issue?).map Issue.message := by
  obtain ⟨-, -, hrejected, hgroup⟩ := parameters.group_eq
  have hgroups : ((ofParameters parameters maxLimit).group.map Group.rejected).getD [] =
      (parameters.group.1.map Group.rejected).getD [] := rejected_withConjuncts ..
  have hown : (ofParameters parameters maxLimit).rejected =
      (parameters.group.2 ++ parameters.sort.rejected).map Rejection.message := rfl
  have hlist (clause : Clause) : (parameters.readClause clause).rejected =
      refusals (parameters.asked clause) ++
        (parameters.fates clause).filterMap Fate.rejection? := rejected_ofAsked ..
  have horder : parameters.sort.rejected = refusals parameters.askedOrder ++
      parameters.orderFates.filterMap Fate.rejection? := by
    rw [parameters.sort_eq_ofAsked]
    exact rejected_ofAsked ..
  -- The filter keeps the rejections of the texts, its group those of the two lists.
  rw [errors, issues_ofParameters, hgroups, hrejected, hown, hgroup, horder, hlist, hlist,
    ← List.map_append, ← List.append_assoc (refusals parameters.askedGroup ++ _)]

/-- Each element that a query string asks for reaches the statement or one message, and
nothing else is in either of them. A query is valid just when everything is in it. -/
theorem Filter.nothing_is_dropped (parameters : Parameters) (maxLimit : Int) (table : String) :
    ((ofParameters parameters maxLimit).compile table).sql =
        "SELECT * FROM " ++ cleanName table ++
          clauseSql " WHERE " " AND "
            (grouped " AND "
                ((parameters.fates .conjuncts).filterMap Fate.part? ++ parameters.plainTests) ++
              grouped " OR " ((parameters.fates .disjuncts).filterMap Fate.part?)) ++
          clauseSql " ORDER BY " ", "
            ((parameters.orderFates.filterMap Fate.part?).map OrderTerm.sql) ++
          (if (nonzero (ofParameters parameters maxLimit).limit).isSome then " LIMIT ?" else "") ++
          (if (nonzero (ofParameters parameters maxLimit).offset).isSome then " OFFSET ?"
            else "") ∧
      ((ofParameters parameters maxLimit).compile table).errors =
        (refusals parameters.askedGroup ++
            (refusals parameters.askedOrder ++ parameters.orderFates.filterMap Fate.rejection?) ++
            (refusals (parameters.asked .conjuncts) ++
              (parameters.fates .conjuncts).filterMap Fate.rejection?) ++
            (refusals (parameters.asked .disjuncts) ++
              (parameters.fates .disjuncts).filterMap Fate.rejection?)).map Rejection.message ++
          ((parameters.fates .conjuncts).filterMap Fate.issue? ++
            (parameters.fates .disjuncts).filterMap Fate.issue? ++
            parameters.orderFates.filterMap Fate.issue?).map Issue.message ∧
      (∀ clause, ((parameters.fates clause).filterMap Fate.part?).length +
          ((parameters.fates clause).filterMap Fate.rejection?).length +
          ((parameters.fates clause).filterMap Fate.issue?).length =
        (elements (parameters.asked clause)).length) ∧
      (parameters.orderFates.filterMap Fate.part?).length +
          (parameters.orderFates.filterMap Fate.rejection?).length +
          (parameters.orderFates.filterMap Fate.issue?).length =
        (elements parameters.askedOrder).length ∧
      (((ofParameters parameters maxLimit).compile table).ensureValid =
          .ok ((ofParameters parameters maxLimit).compile table) ↔ parameters.Honoured) := by
  obtain ⟨hconjuncts, hdisjuncts, horder⟩ := parts_ofParameters parameters maxLimit table
  have herrors := errors_ofParameters parameters maxLimit
  refine ⟨?_, herrors, fun clause => ?_, ?_, ?_⟩
  · rw [← hconjuncts, ← hdisjuncts, ← horder]
    rfl
  · exact (Fate.length_eq _).trans (length_fates ..)
  · exact (Fate.length_eq _).trans (length_fates ..)
  · rw [CompiledQuery.ensureValid_eq_ok]
    show (ofParameters parameters maxLimit).errors = [] ↔ _
    rw [herrors]
    simp only [List.append_eq_nil_iff, List.map_eq_nil_iff, refusals_eq_nil]
    constructor
    · rintro ⟨⟨⟨⟨hg, ho, hor⟩, hc, hcr⟩, hd, hdr⟩, ⟨hci, hdi⟩, hoi⟩
      refine ⟨hg, fun clause => ?_, ho, fun clause => ?_, Fate.all_reached.mp ⟨hor, hoi⟩⟩
      · cases clause
        · exact hc
        · exact hd
      · cases clause
        · exact Fate.all_reached.mp ⟨hcr, hci⟩
        · exact Fate.all_reached.mp ⟨hdr, hdi⟩
    · intro h
      obtain ⟨hor, hoi⟩ := Fate.all_reached.mpr h.terms
      have hreached (clause : Clause) := Fate.all_reached.mpr (h.conditions clause)
      exact ⟨⟨⟨⟨h.group, h.order, hor⟩, h.lists _, (hreached _).1⟩, h.lists _, (hreached _).1⟩,
        ⟨(hreached _).2, (hreached _).2⟩, hoi⟩

/-- Every test and every sort key that is reached stands in the text, in the order of what was
asked for: first the tests that all have to hold, then the alternatives, then the order. -/
theorem Filter.reached_in_turn (parameters : Parameters) (maxLimit : Int) (table : String) :
    InTurn
      (((parameters.fates .conjuncts).filterMap Fate.part? ++ parameters.plainTests ++
          (parameters.fates .disjuncts).filterMap Fate.part?).map Fragment.sql ++
        (parameters.orderFates.filterMap Fate.part?).map OrderTerm.sql)
      ((ofParameters parameters maxLimit).compile table).sql := by
  obtain ⟨hconjuncts, hdisjuncts, horder⟩ := parts_ofParameters parameters maxLimit table
  rw [← hconjuncts, ← hdisjuncts, ← horder]
  exact Statement.inTurn_sql _

/-- The text of a reached condition is a part of the statement. -/
theorem Filter.exists_of_reached {clause : Clause} {fragment : Fragment}
    (h : .reached fragment ∈ parameters.fates clause) (table : String) :
    ∃ before after, ((ofParameters parameters maxLimit).compile table).sql =
      before ++ fragment.sql ++ after := by
  have hpart : fragment ∈ (parameters.fates clause).filterMap Fate.part? :=
    List.mem_filterMap.mpr ⟨_, h, rfl⟩
  apply (reached_in_turn parameters maxLimit table).exists_of_mem
  apply List.mem_append_left
  apply List.mem_map_of_mem
  cases clause with
  | conjuncts => exact List.mem_append_left _ (List.mem_append_left _ hpart)
  | disjuncts => exact List.mem_append_right _ hpart

end

end Folio.Query
