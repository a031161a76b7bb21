import Folio.Proofs.Query.Operands
import Mathlib.Data.List.Forall2

/-!
# Statements tell nothing of operands

Two filters may differ in their operands, as long as each pair of operands has one shape:
what the operator of their condition has to know to write its test. Then their statements
have one text and their messages are the same. A fragment without its operands, but with as
many places for them, is redacted; its text is that of the fragment.
-/

namespace Folio.Query

-- ---------------------------------------------------------------------------
-- Redacted statements
-- ---------------------------------------------------------------------------

def Fragment.redacted : Fragment → Fragment
  | .compare field comparison _ => .compare field comparison .null
  | .contains field _ => .contains field ""
  | .containsAll field texts => .containsAll field (List.replicate texts.length "")
  | .oneOf field values => .oneOf field (List.replicate values.length .null)
  | .noneOf field values => .noneOf field (List.replicate values.length .null)
  | .isNull field => .isNull field
  | .isNotNull field => .isNotNull field
  | .filled field => .filled field
  | .unfilled field => .unfilled field

def Statement.redacted (statement : Statement) : Statement :=
  { statement with
    conjuncts := statement.conjuncts.map Fragment.redacted
    disjuncts := statement.disjuncts.map Fragment.redacted
    limit := statement.limit.map fun _ => 1
    offset := statement.offset.map fun _ => 1 }

@[simp] theorem Fragment.sql_redacted (fragment : Fragment) :
    fragment.redacted.sql = fragment.sql := by
  cases fragment <;> simp [redacted, sql, List.map_const']

@[simp] theorem Fragment.length_params_redacted (fragment : Fragment) :
    fragment.redacted.params.length = fragment.params.length := by
  cases fragment <;> simp [redacted, params]

theorem grouped_redacted (connective : String) (fragments : List Fragment) :
    grouped connective (fragments.map Fragment.redacted) = grouped connective fragments := by
  simp [grouped, Function.comp_def]

theorem Statement.sql_redacted (statement : Statement) :
    statement.redacted.sql = statement.sql := by
  have hgroups : statement.redacted.groups = statement.groups :=
    congrArg₂ (· ++ ·) (grouped_redacted ..) (grouped_redacted ..)
  have hlimit : statement.redacted.limit.isSome = statement.limit.isSome := Option.isSome_map ..
  have hoffset : statement.redacted.offset.isSome = statement.offset.isSome := Option.isSome_map ..
  have htable : statement.redacted.table = statement.table := rfl
  have horder : statement.redacted.order = statement.order := rfl
  unfold sql
  rw [hgroups, hlimit, hoffset, htable, horder]

theorem Statement.length_params_redacted (statement : Statement) :
    statement.redacted.params.length = statement.params.length := by
  cases hl : statement.limit <;> cases ho : statement.offset <;>
    simp [redacted, params, hl, ho, List.length_flatMap, Function.comp_def]

-- ---------------------------------------------------------------------------
-- Operands of one shape
-- ---------------------------------------------------------------------------

/-- All that an operator looks at in its operand to write its test. -/
def Operator.SameShape (operator : Operator) (operand other : Json) : Prop :=
  match operator with
  | .equals | .notEquals => operand.isNull = other.isNull
  | .like => (Text.words operand.looseText).length = (Text.words other.looseText).length
  | .oneOf | .noneOf | .allOf => operand.looseList.length = other.looseList.length
  | .filled => operand.truthy = other.truthy
  | .greaterThan | .greaterThanEqual | .lessThan | .lessThanEqual | .contains => True
  | .near | .within | .intersects | .unknown _ => True

/-- Conditions that differ in their operands only, and not in the shape of these. -/
structure Condition.Alike (condition other : Condition) : Prop where
  field : condition.field = other.field
  operator : condition.operator = other.operator
  operand : condition.operator.SameShape condition.operand other.operand

structure Group.Alike (group other : Group) : Prop where
  conjuncts : List.Forall₂ Condition.Alike group.conjuncts other.conjuncts
  disjuncts : List.Forall₂ Condition.Alike group.disjuncts other.disjuncts
  rejected : group.rejected = other.rejected

/-- Both numbers ask for something, or neither does. -/
def SamePage (n other : Option Int) : Prop :=
  (nonzero n).isSome = (nonzero other).isSome

/-- Filters that differ in operands of one shape, and in the numbers of their pages. -/
structure Filter.Alike (filter other : Filter) : Prop where
  group : Option.Rel Group.Alike filter.group other.group
  limit : SamePage filter.limit other.limit
  offset : SamePage filter.offset other.offset
  sort : filter.sort = other.sort
  rejected : filter.rejected = other.rejected

theorem Operator.redacted_compile {operator : Operator} {operand other : Json}
    (h : operator.SameShape operand other) (field : Field) :
    (operator.compile field operand).map Fragment.redacted =
      (operator.compile field other).map Fragment.redacted := by
  cases operator with
  | equals | notEquals =>
    simp only [compile, comparing]
    rw [show operand.isNull = other.isNull from h]
    split <;> rfl
  | like | oneOf | noneOf | allOf =>
    simp only [SameShape] at h
    simp [compile, Except.map, Fragment.redacted, h]
  | filled =>
    simp only [compile]
    rw [show operand.truthy = other.truthy from h]
  | _ => rfl

/-- A field never opens a parenthesis before its name, as the test for an empty field does. -/
theorem Field.Clean.sql_filled_ne {field : Field} (h : field.Clean) :
    (Fragment.filled field).sql ≠ (Fragment.unfilled field).sql := by
  intro hs
  have hhead : ((Fragment.filled field).sql.toList).head? = some '(' := by
    rw [hs]
    simp [Fragment.sql]
  cases field with
  | column name =>
    obtain ⟨c, rest, hn⟩ := List.exists_cons_of_ne_nil h.1
    have hc := h.2 c (by simp [hn])
    simp only [Fragment.sql, Field.sql_column, String.toList_append, hn, List.cons_append,
      List.head?_cons, Option.some.injEq] at hhead
    rw [hhead] at hc
    exact absurd hc (by decide)
  | path base steps => simp [Fragment.sql] at hhead

/-- The text of a test shows the shape of its operand, and nothing else of it. -/
theorem Operator.sameShape_iff_sql {operator : Operator} {field : Field} (hf : field.Clean)
    {operand other : Json} {fragment otherFragment : Fragment}
    (h : operator.compile field operand = .ok fragment)
    (ho : operator.compile field other = .ok otherFragment) :
    operator.SameShape operand other ↔ fragment.sql = otherFragment.sql := by
  constructor
  · intro hs
    have hr := redacted_compile hs field
    rw [h, ho] at hr
    rw [← Fragment.sql_redacted, Except.ok.inj hr, Fragment.sql_redacted]
  · intro hs
    have hclean := field_compile h ▸ hf
    have hcleanOther := field_compile ho ▸ hf
    have hcount : fragment.params.length = otherFragment.params.length := by
      rw [← count_of_fill (Fragment.fill_sql hclean), hs,
        count_of_fill (Fragment.fill_sql hcleanOther)]
    rw [params_of_compile h, params_of_compile ho] at hcount
    cases operator with
    | equals | notEquals =>
      simp only [operands, SameShape] at hcount ⊢
      cases hn : operand.isNull <;> cases hm : other.isNull <;> simp_all
    | like | oneOf | noneOf | allOf => simpa [operands, SameShape] using hcount
    | filled =>
      cases h
      cases ho
      show operand.truthy = other.truthy
      cases ht : operand.truthy <;> cases hu : other.truthy <;> simp only [ht, hu] at hs ⊢
      · exact (hf.sql_filled_ne hs.symm).elim
      · exact (hf.sql_filled_ne hs).elim
    | _ => trivial

/-- Neither of two such conditions compiles, for the same reason, or both do. -/
theorem Condition.Alike.compile {condition other : Condition} (h : condition.Alike other) :
    (∃ issue, condition.compile = .error issue ∧ other.compile = .error issue) ∨
      ∃ fragment otherFragment, condition.compile = .ok fragment ∧
        other.compile = .ok otherFragment ∧ fragment.redacted = otherFragment.redacted := by
  obtain ⟨name, operator, operand⟩ := condition
  obtain ⟨otherName, otherOperator, otherOperand⟩ := other
  obtain ⟨rfl, rfl, hs⟩ := h
  cases hf : fieldOf name with
  | error issue =>
    refine .inl ⟨issue, ?_, ?_⟩ <;> simp [Condition.compile, hf, bind, Except.bind]
  | ok field =>
    have hr := Operator.redacted_compile hs field
    simp only [Condition.compile, hf, bind, Except.bind]
    cases ha : operator.compile field operand <;> cases hb : operator.compile field otherOperand <;>
      simp_all [Except.map]

-- ---------------------------------------------------------------------------
-- Filters that are alike
-- ---------------------------------------------------------------------------

section
variable {conditions others : List Condition}
  (h : List.Forall₂ Condition.Alike conditions others)
include h

theorem redacted_compiled :
    (compiled Condition.compile conditions).map Fragment.redacted =
      (compiled Condition.compile others).map Fragment.redacted := by
  induction h with
  | nil => rfl
  | cons hc _ ih =>
    obtain ⟨issue, ha, hb⟩ | ⟨fragment, otherFragment, ha, hb, hr⟩ := hc.compile
    · rw [compiled_cons_error ha, compiled_cons_error hb, ih]
    · rw [compiled_cons_ok ha, compiled_cons_ok hb, List.map_cons, List.map_cons, hr, ih]

theorem issues_alike : issues Condition.compile conditions = issues Condition.compile others := by
  induction h with
  | nil => rfl
  | cons hc _ ih =>
    unfold issues at ih ⊢
    obtain ⟨issue, ha, hb⟩ | ⟨fragment, otherFragment, ha, hb, -⟩ := hc.compile
    · rw [List.filterMap_cons, List.filterMap_cons, ha, hb, ih]
    · rw [List.filterMap_cons, List.filterMap_cons, ha, hb]
      exact ih

end

namespace Filter.Alike

variable {filter other : Filter} (h : filter.Alike other)
include h

theorem parts :
    List.Forall₂ Condition.Alike filter.conjuncts other.conjuncts ∧
      List.Forall₂ Condition.Alike filter.disjuncts other.disjuncts ∧
      (filter.group.map Group.rejected).getD [] = (other.group.map Group.rejected).getD [] := by
  have hg := h.group
  unfold Filter.conjuncts Filter.disjuncts
  generalize filter.group = group, other.group = otherGroup at hg
  cases hg with
  | some hg => exact ⟨hg.conjuncts, hg.disjuncts, hg.rejected⟩
  | none => exact ⟨.nil, .nil, rfl⟩

theorem redacted_statement (table : String) :
    (filter.statement table).redacted = (other.statement table).redacted := by
  have hpage {n m : Option Int} (hs : SamePage n m) :
      (nonzero n).map (fun _ => (1 : Int)) = (nonzero m).map fun _ => 1 := by
    unfold SamePage at hs
    cases hn : nonzero n <;> cases hm : nonzero m <;> simp_all
  obtain ⟨hconjuncts, hdisjuncts, -⟩ := h.parts
  simp only [Statement.redacted, statement, redacted_compiled hconjuncts,
    redacted_compiled hdisjuncts, h.sort, hpage h.limit, hpage h.offset]

theorem errors : filter.errors = other.errors := by
  obtain ⟨hconjuncts, hdisjuncts, hrejected⟩ := h.parts
  simp only [Filter.errors, issues, h.rejected, hrejected, issues_alike hconjuncts,
    issues_alike hdisjuncts, h.sort]

end Filter.Alike

/-- Whatever operands of one shape stand in a filter, the text of its statement and all of its
messages stay the same, and so does the number of parameters. -/
theorem Filter.text_hides_operands {filter other : Filter} (h : filter.Alike other)
    (table : String) :
    (filter.compile table).sql = (other.compile table).sql ∧
      (filter.compile table).errors = (other.compile table).errors ∧
      (filter.compile table).params.length = (other.compile table).params.length := by
  have hredacted := h.redacted_statement table
  refine ⟨?_, h.errors, ?_⟩
  · show (filter.statement table).sql = (other.statement table).sql
    rw [← Statement.sql_redacted, hredacted, Statement.sql_redacted]
  · show (filter.statement table).params.length = (other.statement table).params.length
    rw [← Statement.length_params_redacted, hredacted, Statement.length_params_redacted]

/-- A search for a status, two tags, two words and a cover, with a test that is unknown. -/
def search (status tags words cover : Json) (limit : Int) : Filter where
  group := some
    { conjuncts := [⟨"status", .equals, status⟩, ⟨"meta.tags", .oneOf, tags⟩,
        ⟨"title", .like, words⟩]
      disjuncts := [⟨"cover", .filled, cover⟩, ⟨"body", .unknown "regex", words⟩]
      rejected := [] }
  limit := some limit
  offset := none
  sort := []
  rejected := []

theorem search_hides_operands :
    (search (.string "draft") (.string "a, b") (.string "new blue moon") (.bool true) 5).Alike
        (search (.int 7) (.array [.null, .null]) (.string "' OR\t1=1") (.string "--") (-3)) ∧
      ((search (.string "draft") (.string "a, b") (.string "new blue moon") (.bool true) 5).compile
          "posts").sql =
        ((search (.int 7) (.array [.null, .null]) (.string "' OR\t1=1") (.string "--")
          (-3)).compile "posts").sql := by
  have halike :
      (search (.string "draft") (.string "a, b") (.string "new blue moon") (.bool true) 5).Alike
        (search (.int 7) (.array [.null, .null]) (.string "' OR\t1=1") (.string "--") (-3)) := by
    refine ⟨.some ⟨.cons ⟨rfl, rfl, ?_⟩ (.cons ⟨rfl, rfl, ?_⟩ (.cons ⟨rfl, rfl, ?_⟩ .nil)),
      .cons ⟨rfl, rfl, ?_⟩ (.cons ⟨rfl, rfl, trivial⟩ .nil), rfl⟩, rfl, rfl, rfl, rfl⟩
    · rfl
    · show List.length _ = List.length _
      decide +kernel
    · show List.length _ = List.length _
      decide +kernel
    · rfl
  exact ⟨halike, (Filter.text_hides_operands halike "posts").1⟩

end Folio.Query
