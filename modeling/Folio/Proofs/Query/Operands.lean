import Folio.Proofs.Query.Placeholders

/-!
# The operands of a filter

The parameters of a compiled filter are the operands of its conditions, in their order,
and then the page. A condition that does not compile has none. Bound one after the
other, they reach the placeholders that they were written for.
-/

namespace Folio.Query

open Database (Binding Stored bindings)

-- ---------------------------------------------------------------------------
-- Operands of conditions
-- ---------------------------------------------------------------------------

/-- What a condition compares its field with. -/
def Operator.operands (operator : Operator) (operand : Json) : List Json :=
  match operator with
  | .equals | .notEquals => if operand.isNull then [] else [operand]
  | .greaterThan | .greaterThanEqual | .lessThan | .lessThanEqual => [operand]
  | .like => (Text.words operand.looseText).map fun word => substringPattern (String.ofList word)
  | .contains => [substringPattern (String.ofList operand.looseText)]
  | .oneOf | .noneOf => operand.looseList
  | .allOf => operand.looseList.map fun item => substringPattern (String.ofList item.looseText)
  | .filled | .near | .within | .intersects | .unknown _ => []

/-- Without a field a condition is not compiled, and its operands go with it. -/
def Condition.operands (condition : Condition) : List Json :=
  match Field.ofName? condition.field with
  | none => []
  | some _ => condition.operator.operands condition.operand

def Filter.operands (filter : Filter) : List Json :=
  filter.conjuncts.flatMap Condition.operands ++ filter.disjuncts.flatMap Condition.operands ++
    (nonzero filter.limit).toList.map Json.int ++ (nonzero filter.offset).toList.map Json.int

theorem Operator.params_of_compile {operator : Operator} {field : Field} {operand : Json}
    {fragment : Fragment} (h : operator.compile field operand = .ok fragment) :
    fragment.params = operator.operands operand := by
  cases operator with
  | equals | notEquals =>
    simp only [compile, comparing] at h
    split at h <;> rename_i hn <;> cases h <;> simp [Fragment.params, operands, hn]
  | like | allOf =>
    cases h
    simp [Fragment.params, operands, Function.comp_def]
  | filled =>
    simp only [compile] at h
    cases h
    split <;> rfl
  | near | within | intersects | unknown => cases h
  | _ =>
    cases h
    rfl

theorem Operator.operands_eq_nil {operator : Operator} {field : Field} {operand : Json}
    {issue : Issue} (h : operator.compile field operand = .error issue) :
    operator.operands operand = [] := by
  cases operator with
  | equals | notEquals =>
    simp only [compile, comparing] at h
    split at h <;> cases h
  | near | within | intersects | unknown => rfl
  | _ => cases h

theorem Condition.operands_eq_nil {condition : Condition} {issue : Issue}
    (h : condition.compile = .error issue) : condition.operands = [] := by
  rcases field_of_compile_eq_error h with hf | ⟨field, hf, ho⟩
  · rw [operands, hf]
  · rw [operands, hf]
    exact Operator.operands_eq_nil ho

theorem flatMap_params_compiled (conditions : List Condition) :
    (compiled Condition.compile conditions).flatMap Fragment.params =
      conditions.flatMap Condition.operands := by
  induction conditions with
  | nil => rfl
  | cons condition rest ih =>
    rw [List.flatMap_cons, ← ih]
    cases hc : condition.compile with
    | ok fragment =>
      obtain ⟨field, hf, ho⟩ := Condition.compile_eq_ok.mp hc
      rw [compiled_cons_ok hc, List.flatMap_cons, Operator.params_of_compile ho,
        Condition.operands, hf]
    | error issue => rw [compiled_cons_error hc, Condition.operands_eq_nil hc, List.nil_append]

theorem Filter.params_compile (filter : Filter) (table : String) :
    (filter.compile table).params = filter.operands := by
  simp only [compile, statement, Statement.params, operands, flatMap_params_compiled]

-- ---------------------------------------------------------------------------
-- Binding
-- ---------------------------------------------------------------------------

theorem map_some_bindings (params : List Json) :
    (bindings params).map some = params.map Stored.bind? := by
  simp [Database.bindings_eq_map, Function.comp_def, Stored.bind?_eq]

/-- Parameters in names never make a placeholder take the value of another. -/
theorem placeholders_of_extend {values : List Stored}
    {parameters : List Database.Parameter} {start binding : Binding}
    (hs : start.placeholders <+: values) (h : start.extend values parameters = .ok binding) :
    binding.placeholders <+: values := by
  -- What is handed out stays a prefix of all values; a named parameter repeats one of them.
  induction parameters generalizing start with
  | nil =>
    cases h
    exact hs
  | cons parameter rest ih =>
    cases parameter with
    | placeholder =>
      simp only [Database.Binding.extend] at h
      split at h
      · rename_i value hv
        refine ih ?_ h
        obtain ⟨others, rfl⟩ := hs
        obtain ⟨tail, rfl⟩ : ∃ tail, others = value :: tail := by
          cases others with
          | nil => simp at hv
          | cons other tail => exact ⟨tail, by simpa using hv⟩
        exact ⟨tail, by simp⟩
      · cases h
        exact hs
    | chosen text =>
      simp only [Database.Binding.extend] at h
      split at h
      · exact ih hs h
      · split at h
        · cases h
        · cases h
        · split at h
          · refine ih ?_ h
            exact hs
          · cases h
            exact hs

/-- The operands of a filter and the placeholders of its statement are the same in number
and in order, and each placeholder is bound to its own operand. The last part is about the
binding of this library's own database, `Database.bind`. -/
theorem Filter.placeholders_meet_operands (filter : Filter) (table : String) :
    (filter.compile table).sql.toList.count '?' = (filter.compile table).params.length ∧
      (filter.compile table).params = filter.operands ∧
      (bindings (filter.compile table).params).map some =
        (filter.compile table).params.map Stored.bind? ∧
      fill (filter.compile table).sql.toList (bindings (filter.compile table).params) =
        some ((filter.statement table).inPlace.map (Sum.map id Stored.bind)) ∧
      ∀ binding, Database.bind (filter.statement table) = .ok binding →
        binding.placeholders <+: bindings (filter.compile table).params := by
  have hfill : fill (filter.compile table).sql.toList (filter.compile table).params =
      some (filter.statement table).inPlace := (filter.statement_clean table).fill_sql
  refine ⟨count_of_fill hfill, filter.params_compile table, map_some_bindings _, ?_, ?_⟩
  · rw [Database.bindings_eq_map, fill_map, hfill, Option.map_some]
  · intro binding hb
    exact placeholders_of_extend List.nil_prefix hb

end Folio.Query
