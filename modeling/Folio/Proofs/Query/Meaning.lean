import Folio.Proofs.Query.Operands
import Folio.Proofs.Query.Reading
import Folio.Proofs.Sql.Truth

/-!
# A clause means what its filter says

What a filter says is put down without looking at any text: the value of a condition is
that of the tests which its operator makes, all conjuncts have to hold, and of the
disjuncts one. Operands are known by their places among all operands, as placeholders
are in the text.
-/

namespace Folio.Query

open Sql (Truth truth value? IsKeyword)
open Database.Condition (parts parameters numbered chain?)

-- ---------------------------------------------------------------------------
-- The values of conditions
-- ---------------------------------------------------------------------------

section
variable (v : Database.Condition → Truth)

def likeAll (field : Field) (index count : Nat) : Truth :=
  .all ((parameters index count).map fun operand => v (.like field operand))

/-- The value of the test that an operator makes when its operands begin at `index`. -/
def Operator.value? (operator : Operator) (field : Field) (index : Nat) (operand : Json) :
    Option Truth :=
  match operator with
  | .equals =>
    some (if operand.isNull then v (.isNull field)
      else v (.compare field .equal (.parameter index)))
  | .notEquals =>
    some (if operand.isNull then v (.isNotNull field)
      else v (.compare field .notEqual (.parameter index)))
  | .greaterThan => some (v (.compare field .greater (.parameter index)))
  | .greaterThanEqual => some (v (.compare field .greaterOrEqual (.parameter index)))
  | .lessThan => some (v (.compare field .less (.parameter index)))
  | .lessThanEqual => some (v (.compare field .lessOrEqual (.parameter index)))
  | .like => some (likeAll v field index (Text.words operand.looseText).length)
  | .contains => some (v (.like field (.parameter index)))
  | .oneOf =>
    some (if operand.looseList.isEmpty then .false
      else v (.within field (parameters index operand.looseList.length)))
  | .noneOf =>
    some (if operand.looseList.isEmpty then .true
      else (v (.within field (parameters index operand.looseList.length))).not)
  | .allOf => some (likeAll v field index operand.looseList.length)
  | .filled =>
    some (if operand.truthy then
        (v (.isNotNull field)).and (v (.compare field .notEqual .emptyText))
      else (v (.isNull field)).or (v (.compare field .equal .emptyText)))
  | .near | .within | .intersects | .unknown _ => none

def Condition.value? (index : Nat) (condition : Condition) : Option Truth :=
  match Field.ofName? condition.field with
  | none => none
  | some field => condition.operator.value? v field index condition.operand

def values (index : Nat) : List Condition → List Truth
  | [] => []
  | condition :: rest =>
    (condition.value? v index).toList ++ values (index + condition.operands.length) rest

/-- One of the values has to be true, if there are any. -/
def anyOrNone (values : List Truth) : Truth :=
  if values.isEmpty then .true else .any values

/-- What a filter asks of a row. A list without a condition that compiles asks nothing. -/
def Filter.value (filter : Filter) : Truth :=
  (Truth.all (values v 0 filter.conjuncts)).and
    (anyOrNone (values v (filter.conjuncts.flatMap Condition.operands).length filter.disjuncts))

def Fragment.value (index : Nat) (fragment : Fragment) : Truth :=
  .all ((parts index fragment).map (truth v))

-- ---------------------------------------------------------------------------
-- Compiling keeps the values
-- ---------------------------------------------------------------------------

theorem Fragment.value_containsAll (field : Field) (texts : List String) (index : Nat) :
    (containsAll field texts).value v index = likeAll v field index texts.length := by
  have hchain := Sql.truth_chain?_and v ((parameters index texts.length).map (.like field))
  rw [List.map_map] at hchain
  simp only [value, parts, List.map_cons, List.map_nil, Truth.all_cons, Truth.all_nil,
    Truth.and_true]
  cases hc : chain? .and ((parameters index texts.length).map (.like field)) with
  | none =>
    rw [hc] at hchain
    exact hchain
  | some condition =>
    rw [hc] at hchain
    exact hchain

theorem Operator.value?_compile {operator : Operator} {field : Field} {operand : Json}
    {fragment : Fragment} (h : operator.compile field operand = .ok fragment) (index : Nat) :
    operator.value? v field index operand = some (fragment.value v index) := by
  cases operator with
  | equals | notEquals =>
    simp only [compile, comparing] at h
    split at h <;> rename_i hn <;> cases h <;>
      simp [value?, hn, Fragment.value, parts, truth]
  | like | allOf =>
    cases h
    simp [value?, Fragment.value_containsAll]
  | oneOf | noneOf =>
    cases h
    cases he : operand.looseList.isEmpty <;>
      simp [value?, he, Fragment.value, parts, truth, Truth.ofBool]
  | filled =>
    simp only [compile] at h
    cases h
    cases ht : operand.truthy <;> simp [value?, ht, Fragment.value, parts, truth]
  | near | within | intersects | unknown => cases h
  | _ =>
    cases h
    simp [value?, Fragment.value, parts, truth]

theorem Condition.value?_compile {condition : Condition} {fragment : Fragment}
    (h : condition.compile = .ok fragment) (index : Nat) :
    condition.value? v index = some (fragment.value v index) ∧
      condition.operands.length = fragment.params.length := by
  obtain ⟨field, hf, ho⟩ := compile_eq_ok.mp h
  constructor
  · rw [value?, hf]
    exact Operator.value?_compile v ho index
  · rw [operands, hf, Operator.params_of_compile ho]

theorem Condition.value?_eq_none {condition : Condition} {issue : Issue}
    (h : condition.compile = .error issue) (index : Nat) : condition.value? v index = none := by
  rcases field_of_compile_eq_error h with hf | ⟨field, hf, ho⟩
  · rw [value?, hf]
  · rw [value?, hf]
    cases hop : condition.operator with
    | equals | notEquals =>
      simp only [hop, Operator.compile, comparing] at ho
      split at ho <;> cases ho
    | near | within | intersects | unknown => rfl
    | _ =>
      rw [hop] at ho
      cases ho

theorem values_eq (conditions : List Condition) (index : Nat) :
    values v index conditions =
      (numbered index (compiled Condition.compile conditions)).map fun (index, f) =>
        f.value v index := by
  induction conditions generalizing index with
  | nil => rfl
  | cons condition rest ih =>
    cases hc : condition.compile with
    | ok fragment =>
      obtain ⟨hv, hl⟩ := Condition.value?_compile v hc index
      rw [values, hv, hl, ih, compiled_cons_ok hc, numbered_cons]
      rfl
    | error issue =>
      -- Skipped conditions use no places up, so those behind them keep theirs.
      rw [values, Condition.value?_eq_none v hc, Condition.operands_eq_nil hc, ih,
        compiled_cons_error hc]
      rfl

theorem truth_all? (fragments : List (Nat × Fragment)) :
    (all? fragments).elim .true (truth v) =
      .all (fragments.map fun (index, f) => f.value v index) := by
  rw [all?, Sql.truth_chain?_and]
  induction fragments with
  | nil => rfl
  | cons first rest ih =>
    rw [List.flatMap_cons, List.map_append, Truth.all_append, ih]
    rfl

theorem all?_eq_none {fragments : List Fragment} (index : Nat) :
    all? (numbered index fragments) = none ↔ fragments = [] := by
  refine ⟨fun h => ?_, fun h => h ▸ rfl⟩
  by_contra hne
  obtain ⟨condition, hc, _⟩ := run?_all hne .empty index
  cases h.symm.trans hc

theorem any?_eq_none {fragments : List Fragment} (index : Nat) :
    any? (numbered index fragments) = none ↔ fragments = [] := by
  refine ⟨fun h => ?_, fun h => h ▸ rfl⟩
  by_contra hne
  obtain ⟨condition, hc, _⟩ := run?_any hne .empty index
  cases h.symm.trans hc

theorem truth_any? (fragments : List (Nat × Fragment)) :
    (any? fragments).elim .false (truth v) =
      .any (fragments.map fun (index, f) => f.value v index) := by
  rw [any?, Sql.truth_chain?_or]
  induction fragments with
  | nil => rfl
  | cons first rest ih =>
    obtain ⟨condition, hc⟩ := exists_chain? Database.Condition.and (parts_ne_nil first.1 first.2)
    have hone : truth v condition = first.2.value v first.1 := by
      have h := Sql.truth_chain?_and v (parts first.1 first.2)
      rwa [hc] at h
    rw [List.filterMap_cons]
    simp only [hc]
    rw [List.map_cons, Truth.any_cons, ih, hone]
    rfl

theorem truth_any?_numbered (fragments : List Fragment) (index : Nat) :
    (any? (numbered index fragments)).elim .true (truth v) =
      anyOrNone ((numbered index fragments).map fun (index, f) => f.value v index) := by
  have h := truth_any? v (numbered index fragments)
  cases fragments with
  | nil => rfl
  | cons fragment rest =>
    cases hc : any? (numbered index (fragment :: rest)) with
    | none => cases (any?_eq_none index).mp hc
    | some condition =>
      rw [hc] at h
      exact h

end

-- ---------------------------------------------------------------------------
-- The clause of a filter
-- ---------------------------------------------------------------------------

/-- No column that is left of a condition's field is a keyword. -/
def Condition.IsReadable (condition : Condition) : Prop :=
  ∀ field, Field.ofName? condition.field = some field → ¬ IsKeyword field.base

theorem readable_of_mem_compiled {conditions : List Condition}
    (h : ∀ condition ∈ conditions, condition.IsReadable) :
    ∀ fragment ∈ compiled Condition.compile conditions, fragment.Readable := by
  intro fragment hm
  obtain ⟨condition, hc, hcompile⟩ := mem_compiled.mp hm
  obtain ⟨field, hf, ho⟩ := Condition.compile_eq_ok.mp hcompile
  refine ⟨Condition.clean_of_compile hcompile, ?_⟩
  rw [Operator.field_compile ho]
  exact h condition hc field hf

theorem Statement.clause_isEmpty (statement : Statement) :
    statement.clause.isEmpty = statement.groups.isEmpty := by
  unfold clause groups grouped
  cases statement.conjuncts <;> cases statement.disjuncts <;>
    simp [joined, ← String.toList_inj]

theorem Statement.sql_eq (statement : Statement) :
    statement.sql = "SELECT * FROM " ++ statement.table ++
      (if statement.clause.isEmpty then "" else " WHERE " ++ statement.clause) ++
      clauseSql " ORDER BY " ", " (statement.order.map OrderTerm.sql) ++
      (if statement.limit.isSome then " LIMIT ?" else "") ++
      (if statement.offset.isSome then " OFFSET ?" else "") := by
  rw [clause_isEmpty]
  rfl

theorem Statement.truth_ofStatement? (v : Database.Condition → Truth) (statement : Statement) :
    (Database.Condition.ofStatement? statement).elim .true (truth v) =
      ((all? (numbered 0 statement.conjuncts)).elim .true (truth v)).and
        ((any? (numbered (statement.conjuncts.flatMap Fragment.params).length
          statement.disjuncts)).elim .true (truth v)) := by
  rw [ofStatement?_eq, Sql.truth_chain?_and]
  cases all? (numbered 0 statement.conjuncts) <;>
    cases any? (numbered (statement.conjuncts.flatMap Fragment.params).length
      statement.disjuncts) <;> simp

theorem Statement.ofStatement?_isNone (statement : Statement) :
    (Database.Condition.ofStatement? statement).isNone = statement.clause.isEmpty := by
  have hnone (conditions : List Database.Condition) :
      chain? .and conditions = none ↔ conditions = [] := by
    cases conditions <;> simp [chain?]
  have hgroups : statement.groups = [] ↔ statement.conjuncts = [] ∧ statement.disjuncts = [] := by
    unfold groups grouped
    cases statement.conjuncts <;> cases statement.disjuncts <;> simp
  rw [ofStatement?_eq, clause_isEmpty, Bool.eq_iff_iff, Option.isNone_iff_eq_none, hnone,
    List.isEmpty_iff, hgroups, List.append_eq_nil_iff, Option.toList_eq_nil_iff,
    Option.toList_eq_nil_iff, all?_eq_none, any?_eq_none]

/-- The text behind `WHERE` is worth what the filter asks, whatever its tests are worth. -/
theorem Filter.clause_means_filter (filter : Filter) (table : String)
    (h : ∀ condition ∈ filter.conjuncts ++ filter.disjuncts, condition.IsReadable) :
    (filter.compile table).sql = "SELECT * FROM " ++ cleanName table ++
        (if (filter.statement table).clause.isEmpty then ""
          else " WHERE " ++ (filter.statement table).clause) ++
        clauseSql " ORDER BY " ", " ((filter.statement table).order.map OrderTerm.sql) ++
        (if (filter.statement table).limit.isSome then " LIMIT ?" else "") ++
        (if (filter.statement table).offset.isSome then " OFFSET ?" else "") ∧
      ∀ v, value? v (filter.statement table).clause = some (filter.value v) := by
  refine ⟨(filter.statement table).sql_eq, fun v => ?_⟩
  have hr : (filter.statement table).Readable := by
    intro fragment hm
    rcases List.mem_append.mp hm with hm | hm
    · exact readable_of_mem_compiled (fun c hc => h c (List.mem_append_left _ hc)) fragment hm
    · exact readable_of_mem_compiled (fun c hc => h c (List.mem_append_right _ hc)) fragment hm
  have hvalue : (Database.Condition.ofStatement? (filter.statement table)).elim .true (truth v) =
      filter.value v := by
    rw [Statement.truth_ofStatement?, truth_all?]
    have hindex : ((filter.statement table).conjuncts.flatMap Fragment.params).length =
        (filter.conjuncts.flatMap Condition.operands).length := by
      rw [← flatMap_params_compiled]
      rfl
    rw [truth_any?_numbered, hindex, Filter.value, values_eq, values_eq]
    rfl
  rw [← hvalue]
  unfold value?
  rw [hr.read?_clause, ← Statement.ofStatement?_isNone]
  cases Database.Condition.ofStatement? (filter.statement table) <;> rfl

def signed : Filter :=
  { Filter.empty with
    group := some ⟨[⟨"author", .filled, .bool true⟩],
      [⟨"title", .equals, .int 1⟩, ⟨"tag", .oneOf, .array []⟩], []⟩ }

theorem signed_clause_means_filter :
    (∀ condition ∈ signed.conjuncts ++ signed.disjuncts, condition.IsReadable) ∧
      value? (fun _ => .unknown) (signed.statement "posts").clause = some .unknown := by
  have hcolumn (name : String) (condition : Condition)
      (hc : Field.ofName? condition.field = some (.column name)) (hn : ¬ IsKeyword name) :
      condition.IsReadable := by
    intro field hf
    rw [hc] at hf
    cases hf
    exact hn
  have h : ∀ condition ∈ signed.conjuncts ++ signed.disjuncts, condition.IsReadable := by
    intro condition hm
    have hm : condition = ⟨"author", .filled, .bool true⟩ ∨
        condition = ⟨"title", .equals, .int 1⟩ ∨ condition = ⟨"tag", .oneOf, .array []⟩ := by
      simpa [signed, Filter.conjuncts, Filter.disjuncts] using hm
    rcases hm with rfl | rfl | rfl
    · exact hcolumn "author" _ (by decide) (by decide)
    · exact hcolumn "title" _ (by decide) (by decide)
    · exact hcolumn "tag" _ (by decide) (by decide)
  exact ⟨h, (Filter.clause_means_filter signed "posts" h).2 fun _ => .unknown⟩

end Folio.Query
