import Folio.Proofs.Query.Meaning
import Folio.Query.Parameters

/-!
# Plain tests hold

A query string can ask for a status and for a collection, beside a group of conditions
which its sender writes freely. Whatever the group says, no row is found that fails one
of the plain tests, and each of them compares with the text that was given.
-/

namespace Folio.Query

open Sql (Truth truth value? IsKeyword)
open Database (Stored bindings)
open Database.Condition (numbered parts)

-- ---------------------------------------------------------------------------
-- Conjuncts of a statement
-- ---------------------------------------------------------------------------

theorem compiled_append {α β : Type} (compile : α → Except Issue β) (items others : List α) :
    compiled compile (items ++ others) = compiled compile items ++ compiled compile others :=
  List.filterMap_append

theorem numbered_append (fragments others : List Fragment) (index : Nat) :
    numbered index (fragments ++ others) =
      numbered index fragments ++
        numbered (index + (fragments.flatMap Fragment.params).length) others := by
  induction fragments generalizing index with
  | nil => rfl
  | cons fragment fragments ih =>
    rw [List.cons_append, numbered_cons, numbered_cons, ih, List.flatMap_cons, List.length_append,
      Nat.add_assoc]
    rfl

theorem Filter.readable_statement {filter : Filter}
    (h : ∀ condition ∈ filter.conjuncts ++ filter.disjuncts, condition.IsReadable)
    (table : String) : (filter.statement table).Readable := by
  intro fragment hm
  rcases List.mem_append.mp hm with hm | hm
  · exact readable_of_mem_compiled (fun c hc => h c (List.mem_append_left _ hc)) fragment hm
  · exact readable_of_mem_compiled (fun c hc => h c (List.mem_append_right _ hc)) fragment hm

/-- The order and the page, behind the conditions. -/
def Statement.tail (statement : Statement) : String :=
  clauseSql " ORDER BY " ", " (statement.order.map OrderTerm.sql) ++
    (if statement.limit.isSome then " LIMIT ?" else "") ++
    (if statement.offset.isSome then " OFFSET ?" else "")

section
variable {statement : Statement}

theorem Statement.Readable.value?_clause (h : statement.Readable)
    (v : Database.Condition → Truth) :
    value? v statement.clause =
      some ((Database.Condition.ofStatement? statement).elim .true (truth v)) := by
  unfold value?
  rw [h.read?_clause, ← Statement.ofStatement?_isNone]
  cases Database.Condition.ofStatement? statement <;> rfl

variable {before after : List Fragment} {fragment : Fragment}
  (hc : statement.conjuncts = before ++ fragment :: after)
include hc

/-- A clause holds only where each of the conjuncts does, whatever stands around it. -/
theorem Statement.value_of_conjunct (v : Database.Condition → Truth)
    (hv : (Database.Condition.ofStatement? statement).elim .true (truth v) = .true) :
    fragment.value v (before.flatMap Fragment.params).length = .true := by
  rw [Statement.truth_ofStatement?, Truth.and_eq_true, truth_all?, Truth.all_eq_true, hc,
    numbered_append, numbered_cons, Nat.zero_add] at hv
  refine hv.1 _ (List.mem_map.mpr ⟨(_, fragment), ?_, rfl⟩)
  exact List.mem_append_right _ (List.mem_cons_self ..)

theorem Statement.param_of_conjunct {operand : Json} (ho : fragment.params = [operand]) :
    statement.params[(before.flatMap Fragment.params).length]? = some operand := by
  simp [Statement.params, hc, ho]

theorem Statement.sql_of_conjunct :
    statement.sql =
      "SELECT * FROM " ++ statement.table ++ " WHERE " ++ statement.clause ++ statement.tail := by
  have hclause : statement.clause.isEmpty = false := by
    rw [Statement.clause_isEmpty, Statement.groups, hc]
    cases before <;> rfl
  rw [Statement.sql_eq, hclause]
  simp [Statement.tail, String.append_assoc]

end

/-- What a placeholder is bound to is the parameter that has its number. -/
theorem stored_of_bind {statement : Statement} {binding : Database.Binding}
    (hb : Database.bind statement = .ok binding) {index : Nat} {param : Json}
    (hp : statement.params[index]? = some param) {stored : Stored}
    (hs : binding.placeholders[index]? = some stored) : stored = Stored.bind param := by
  have hbound : binding.placeholders <+: bindings statement.params :=
    placeholders_of_extend List.nil_prefix hb
  obtain ⟨rest, hr⟩ := hbound
  have hl := (List.getElem?_eq_some_iff.mp hs).1
  have ha : (bindings statement.params)[index]? = some stored := by
    rw [← hr, List.getElem?_append_left hl, hs]
  rw [Database.bindings_eq_map, List.getElem?_map, hp] at ha
  exact (Option.some.inj ha).symm

-- ---------------------------------------------------------------------------
-- Filters from query strings
-- ---------------------------------------------------------------------------

theorem Filter.conjuncts_ofParameters (parameters : Parameters) (maxLimit : Int) :
    (ofParameters parameters maxLimit).conjuncts =
      (parameters.group.1.map Group.conjuncts).getD [] ++ parameters.plainConditions := by
  show ((withConjuncts parameters.group.1 parameters.plainConditions).map _).getD _ = _
  unfold withConjuncts
  cases parameters.group.1 <;> cases parameters.plainConditions <;> simp [Group.empty]

theorem Filter.disjuncts_ofParameters (parameters : Parameters) (maxLimit : Int) :
    (ofParameters parameters maxLimit).disjuncts =
      (parameters.group.1.map Group.disjuncts).getD [] := by
  show ((withConjuncts parameters.group.1 parameters.plainConditions).map _).getD _ = _
  unfold withConjuncts
  cases parameters.group.1 <;> cases parameters.plainConditions <;> simp [Group.empty]

theorem Condition.isReadable_of_column {condition : Condition} {name : String}
    (hc : Field.ofName? condition.field = some (.column name)) (hn : ¬ IsKeyword name) :
    condition.IsReadable := by
  intro field hf
  cases hc.symm.trans hf
  exact hn

/-- No column of the group in `where` is a keyword. Without a group nothing is asked. -/
def Parameters.IsReadable (parameters : Parameters) : Prop :=
  ∀ group, parameters.group.1 = some group →
    ∀ condition ∈ group.conjuncts ++ group.disjuncts, condition.IsReadable

theorem ofName?_plain {field : String} (h : field ∈ plainFields) :
    Field.ofName? field = some (.column field) ∧ ¬ IsKeyword field := by
  revert field
  decide

theorem compile_plainCondition {field : String} (h : field ∈ plainFields) (value : String) :
    (plainCondition field value).compile =
      .ok (.compare (.column field) .equal (.string value)) :=
  Condition.compile_eq_ok.mpr ⟨_, (ofName?_plain h).1, rfl⟩

theorem mem_plainConditions {parameters : Parameters} {condition : Condition} :
    condition ∈ parameters.plainConditions ↔
      ∃ field ∈ plainFields, ∃ value, parameters.get? field = some value ∧
        condition = plainCondition field value := by
  simp [Parameters.plainConditions, eq_comm (a := condition)]

theorem Parameters.IsReadable.filter {parameters : Parameters} (h : parameters.IsReadable)
    (maxLimit : Int) :
    ∀ condition ∈ (Filter.ofParameters parameters maxLimit).conjuncts ++
      (Filter.ofParameters parameters maxLimit).disjuncts, condition.IsReadable := by
  intro condition hm
  rw [Filter.conjuncts_ofParameters, Filter.disjuncts_ofParameters] at hm
  have hplain (hm : condition ∈ parameters.plainConditions) : condition.IsReadable := by
    obtain ⟨name, hn, value, -, rfl⟩ := mem_plainConditions.mp hm
    exact Condition.isReadable_of_column (ofName?_plain hn).1 (ofName?_plain hn).2
  cases hg : parameters.group.1 with
  | none =>
    rw [hg] at hm
    exact hplain (by simpa using hm)
  | some group =>
    rw [hg] at hm
    rcases List.mem_append.mp hm with hm | hm
    · rcases List.mem_append.mp hm with hm | hm
      · exact h group hg condition (List.mem_append_left _ hm)
      · exact hplain hm
    · exact h group hg condition (List.mem_append_right _ hm)

/-- The rows of a statement pass each plain test, whatever the group beside it asks. The
placeholder of the test is bound to the text of its parameter and to nothing else. -/
theorem Filter.plain_test_holds {parameters : Parameters} {field value : String}
    (hf : field ∈ plainFields) (hv : parameters.get? field = some value)
    (hr : parameters.IsReadable) (maxLimit : Int) (table : String) :
    ((ofParameters parameters maxLimit).compile table).sql =
        "SELECT * FROM " ++ cleanName table ++ " WHERE " ++
          ((ofParameters parameters maxLimit).statement table).clause ++
          ((ofParameters parameters maxLimit).statement table).tail ∧
      '?' ∉ (cleanName table).toList ∧
      ∃ index,
      (∀ v, ∃ truth,
        value? v ((ofParameters parameters maxLimit).statement table).clause = some truth ∧
          (truth = .true → v (.compare (.column field) .equal (.parameter index)) = .true)) ∧
      ((ofParameters parameters maxLimit).compile table).params[index]? = some (.string value) ∧
      ∀ binding, Database.bind ((ofParameters parameters maxLimit).statement table) =
          .ok binding →
        ∀ stored, binding.placeholders[index]? = some stored → stored = .text value := by
  have hm : plainCondition field value ∈ (ofParameters parameters maxLimit).conjuncts := by
    rw [conjuncts_ofParameters]
    exact List.mem_append_right _ (mem_plainConditions.mpr ⟨field, hf, value, hv, rfl⟩)
  obtain ⟨before, after, hsplit⟩ := List.append_of_mem hm
  have hc : ((ofParameters parameters maxLimit).statement table).conjuncts =
      compiled Condition.compile before ++
        .compare (.column field) .equal (.string value) ::
          compiled Condition.compile after := by
    rw [← compiled_cons_ok (compile_plainCondition hf value), ← compiled_append, ← hsplit]
    rfl
  have hparam := Statement.param_of_conjunct hc rfl
  refine ⟨Statement.sql_of_conjunct hc, notMem_of_isNameChar (by decide) (cleanName_clean table),
    ((compiled Condition.compile before).flatMap Fragment.params).length, ?_, hparam, ?_⟩
  · intro v
    refine ⟨_, (readable_statement (hr.filter maxLimit) table).value?_clause v, fun ht => ?_⟩
    have hvalue := Statement.value_of_conjunct hc v ht
    simpa [Fragment.value, parts, truth] using hvalue
  · intro binding hb stored hs
    exact stored_of_bind hb hparam hs

/-- Drafts, where the group asks for an author and for a title in its own words. -/
def titledDrafts : Parameters where
  lookup
    | "status" => some "draft"
    | "where" => some ("\x7b\"and\": [\x7b\"field\": \"author\", \"operator\": \"equals\", \"value\": 3\x7d], " ++
        "\"or\": [\x7b\"field\": \"title\", \"operator\": \"exists\", \"value\": 1\x7d]\x7d")
    | _ => none

theorem titledDrafts_plain_test_holds :
    "status" ∈ plainFields ∧ titledDrafts.get? "status" = some "draft" ∧
      titledDrafts.IsReadable ∧
      ∃ index, ((Filter.ofParameters titledDrafts defaultMaxLimit).compile "posts").params[index]? =
          some (.string "draft") ∧
        ∀ v, ∃ truth, value? v
            ((Filter.ofParameters titledDrafts defaultMaxLimit).statement "posts").clause =
              some truth ∧
          (truth = .true →
            v (.compare (.column "status") .equal (.parameter index)) = .true) := by
  have hfields : (titledDrafts.group.1.map fun group =>
      (group.conjuncts ++ group.disjuncts).map Condition.field) = some ["author", "title"] := by
    decide +kernel
  have hreadable : titledDrafts.IsReadable := by
    intro group hg condition hm
    rw [hg, Option.map_some] at hfields
    have hname := List.mem_map_of_mem (f := Condition.field) hm
    rw [Option.some.inj hfields] at hname
    have hcolumns : ∀ name ∈ ["author", "title"],
        Field.ofName? name = some (.column name) ∧ ¬ IsKeyword name := by
      decide
    obtain ⟨hcolumn, hkeyword⟩ := hcolumns _ hname
    exact Condition.isReadable_of_column hcolumn hkeyword
  have hstatus : "status" ∈ plainFields := by decide
  obtain ⟨-, -, index, hvalue, hparam, -⟩ :=
    Filter.plain_test_holds hstatus rfl hreadable defaultMaxLimit "posts"
  exact ⟨hstatus, rfl, hreadable, index, hparam, hvalue⟩

end Folio.Query
