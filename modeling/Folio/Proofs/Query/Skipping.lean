import Folio.Proofs.Query.Clean

/-!
# Skipping is not asking

A condition or a sort key without a meaning is skipped when a filter is compiled. It leaves
nothing behind: the filter that never held it gives the same text and the same parameters,
whatever stands around it, and has nothing to report.
-/

namespace Folio.Query

/-- Something is left of the name, and in front of its first point. -/
def hasColumn (name : String) : Bool :=
  (cleanName name).toList.head?.any (· ≠ '.')

/-- Near, within and intersects have no test, and neither have names without a meaning. -/
def Operator.isSupported : Operator → Bool
  | .near | .within | .intersects | .unknown _ => false
  | _ => true

def Condition.isUsable (condition : Condition) : Bool :=
  hasColumn condition.field && condition.operator.isSupported

def SortKey.isUsable (key : SortKey) : Bool :=
  hasColumn key.field && key.order.direction?.isSome

/-- The filter without the parts that are skipped, and without messages about others. -/
def Group.cleaned (group : Group) : Group where
  conjuncts := group.conjuncts.filter Condition.isUsable
  disjuncts := group.disjuncts.filter Condition.isUsable
  rejected := []

@[inherit_doc Group.cleaned]
def Filter.cleaned (filter : Filter) : Filter where
  group := filter.group.map Group.cleaned
  limit := filter.limit
  offset := filter.offset
  sort := filter.sort.filter SortKey.isUsable
  rejected := []

-- ---------------------------------------------------------------------------
-- What compiles
-- ---------------------------------------------------------------------------

theorem hasColumn_iff {name : String} :
    hasColumn name = true ↔ ∃ field, Field.ofName? name = some field := by
  have hfirst (cleaned : List Char) :
      (cleaned.takeWhile (· ≠ '.')).isEmpty = !cleaned.head?.any (· ≠ '.') := by
    cases cleaned with
    | nil => rfl
    | cons c rest => by_cases hc : c = '.' <;> simp [hc]
  simp only [hasColumn, Field.ofName?, cleanName, String.toList_ofList, hfirst]
  cases (name.toList.filter isNameChar).head?.any (· ≠ '.') with
  | false => simp
  | true =>
    simp only [Bool.not_true, Bool.false_eq_true, if_false, true_iff]
    split
    · exact ⟨_, rfl⟩
    · exact ⟨_, rfl⟩

theorem Operator.isSupported_iff {operator : Operator} {field : Field} {operand : Json} :
    operator.isSupported = true ↔ ∃ fragment, operator.compile field operand = .ok fragment := by
  cases operator with
  | equals | notEquals =>
    simp only [isSupported, compile, comparing, true_iff]
    split <;> exact ⟨_, rfl⟩
  | near | within | intersects | unknown => simp [isSupported, compile]
  | _ => exact iff_of_true rfl ⟨_, rfl⟩

theorem Condition.isUsable_iff {condition : Condition} :
    condition.isUsable = true ↔ ∃ fragment, condition.compile = .ok fragment := by
  simp only [isUsable, Bool.and_eq_true, hasColumn_iff, compile_eq_ok]
  constructor
  · rintro ⟨⟨field, hf⟩, ho⟩
    obtain ⟨fragment, hc⟩ := Operator.isSupported_iff.mp ho
    exact ⟨fragment, field, hf, hc⟩
  · rintro ⟨fragment, field, hf, hc⟩
    exact ⟨⟨field, hf⟩, Operator.isSupported_iff.mpr ⟨fragment, hc⟩⟩

theorem SortKey.isUsable_iff {key : SortKey} :
    key.isUsable = true ↔ ∃ term, key.compile = .ok term := by
  simp only [isUsable, Bool.and_eq_true, hasColumn_iff, compile_eq_ok]
  constructor
  · rintro ⟨⟨field, hf⟩, ho⟩
    cases hk : key.order with
    | valid direction => exact ⟨⟨field, direction⟩, hf, rfl⟩
    | invalid text => simp [hk, SortOrder.direction?] at ho
  · rintro ⟨term, hf, ho⟩
    exact ⟨⟨term.field, hf⟩, by simp [ho, SortOrder.direction?]⟩

-- ---------------------------------------------------------------------------
-- What is skipped
-- ---------------------------------------------------------------------------

section
variable {α β : Type} {compile : α → Except Issue β} {usable : α → Bool}

/-- Skipped items may as well not be in the list. -/
theorem compiled_filter (h : ∀ {item}, usable item = true ↔ ∃ b, compile item = .ok b)
    (items : List α) : compiled compile (items.filter usable) = compiled compile items := by
  induction items with
  | nil => rfl
  | cons item items ih =>
    cases hc : compile item with
    | ok b =>
      rw [List.filter_cons_of_pos (h.mpr ⟨b, hc⟩), compiled_cons_ok hc, compiled_cons_ok hc, ih]
    | error issue =>
      have hu : ¬ usable item = true := by simp [h, hc]
      rw [List.filter_cons_of_neg hu, compiled_cons_error hc, ih]

theorem issues_filter (h : ∀ {item}, usable item = true ↔ ∃ b, compile item = .ok b)
    (items : List α) : issues compile (items.filter usable) = [] := by
  refine List.filterMap_eq_nil_iff.mpr fun item hm => ?_
  obtain ⟨b, hb⟩ := h.mp (List.mem_filter.mp hm).2
  rw [hb, issueOf]

end

namespace Filter

variable (filter : Filter)

theorem conjuncts_cleaned :
    filter.cleaned.conjuncts = filter.conjuncts.filter Condition.isUsable := by
  unfold cleaned conjuncts
  cases filter.group <;> rfl

theorem disjuncts_cleaned :
    filter.cleaned.disjuncts = filter.disjuncts.filter Condition.isUsable := by
  unfold cleaned disjuncts
  cases filter.group <;> rfl

theorem statement_cleaned (table : String) :
    filter.cleaned.statement table = filter.statement table := by
  unfold statement
  rw [conjuncts_cleaned, disjuncts_cleaned, compiled_filter Condition.isUsable_iff,
    compiled_filter Condition.isUsable_iff]
  exact congrArg (fun order => Statement.mk _ _ _ order _ _)
    (compiled_filter SortKey.isUsable_iff filter.sort)

theorem errors_cleaned : filter.cleaned.errors = [] := by
  have hissues : filter.cleaned.issues = [] := by
    rw [issues, conjuncts_cleaned, disjuncts_cleaned, issues_filter Condition.isUsable_iff,
      issues_filter Condition.isUsable_iff]
    exact issues_filter SortKey.isUsable_iff filter.sort
  have hgroup : (filter.cleaned.group.map Group.rejected).getD [] = [] := by
    unfold cleaned
    cases filter.group <;> rfl
  rw [errors, hissues, hgroup]
  rfl

/-- A filter compiles to the statement of its cleaned form, which has nothing to report. -/
theorem compile_cleaned (table : String) :
    (filter.cleaned.compile table).sql = (filter.compile table).sql ∧
      (filter.cleaned.compile table).params = (filter.compile table).params ∧
      (filter.cleaned.compile table).errors = [] := by
  have hs := filter.statement_cleaned table
  exact ⟨congrArg Statement.sql hs, congrArg Statement.params hs, filter.errors_cleaned⟩

end Filter

end Folio.Query
