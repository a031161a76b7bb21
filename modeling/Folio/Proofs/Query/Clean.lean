import Folio.Database.Grammar
import Folio.Query.Result
import Folio.Text.Blank
import Mathlib.Data.List.TakeWhile

/-!
# The names of a statement are clean

Names come from outside and stand in a statement as they are. Compiling leaves of
them only characters that mean nothing to the reader of a statement: columns are
runs of word characters, and points occur in tables and in paths.
-/

namespace Folio.Query

open Database (isWordChar)

def IsColumn (name : String) : Prop :=
  name.toList ≠ [] ∧ ∀ c ∈ name.toList, isWordChar c = true

def Field.Clean : Field → Prop
  | .column name => IsColumn name
  | .path base steps => IsColumn base ∧ ∀ c ∈ steps.toList, isNameChar c = true

structure Statement.Clean (statement : Statement) : Prop where
  table : ∀ c ∈ statement.table.toList, isNameChar c = true
  conjuncts : ∀ fragment ∈ statement.conjuncts, fragment.field.Clean
  disjuncts : ∀ fragment ∈ statement.disjuncts, fragment.field.Clean
  order : ∀ term ∈ statement.order, term.field.Clean

-- ---------------------------------------------------------------------------
-- Names
-- ---------------------------------------------------------------------------

/-- The point is the only character of names that is none of words. -/
theorem isWordChar_of_isNameChar {c : Char} (h : isNameChar c = true) (hp : c ≠ '.') :
    isWordChar c = true := by
  simpa [isNameChar, isWordChar, hp] using h

theorem isNameChar_of_isWordChar {c : Char} (h : isWordChar c = true) : isNameChar c = true := by
  simp only [isWordChar, Bool.or_eq_true] at h
  simp only [isNameChar, Bool.or_eq_true]
  exact .inl h

/-- A character that no name has is in no text of name characters. -/
theorem notMem_of_isNameChar {mark : Char} (hm : isNameChar mark = false) {text : List Char}
    (h : ∀ c ∈ text, isNameChar c = true) : mark ∉ text := by
  intro hc
  rw [h mark hc] at hm
  cases hm

theorem cleanName_clean (name : String) : ∀ c ∈ (cleanName name).toList, isNameChar c = true := by
  intro c hc
  simp only [cleanName, String.toList_ofList, List.mem_filter] at hc
  exact hc.2

theorem Field.clean_of_ofName? {name : String} {field : Field} (h : ofName? name = some field) :
    field.Clean := by
  simp only [ofName?] at h
  split at h
  · cases h
  · rename_i hne
    have hkept : ∀ c ∈ name.toList.filter isNameChar, isNameChar c = true :=
      fun c hc => (List.mem_filter.mp hc).2
    have hcolumn : IsColumn (.ofList ((name.toList.filter isNameChar).takeWhile (· ≠ '.'))) := by
      refine ⟨by simpa using hne, fun c hc => ?_⟩
      rw [String.toList_ofList] at hc
      exact isWordChar_of_isNameChar (hkept c (List.takeWhile_subset _ hc))
        (by simpa using List.mem_takeWhile_imp hc)
    split at h
    · cases h
      exact hcolumn
    · rename_i point steps hd
      cases h
      refine ⟨hcolumn, fun c hc => hkept c ?_⟩
      rw [String.toList_ofList] at hc
      exact (List.dropWhile_suffix _).subset (hd ▸ List.mem_cons_of_mem _ hc)

-- ---------------------------------------------------------------------------
-- Compiling
-- ---------------------------------------------------------------------------

theorem mem_compiled {α β : Type} {compile : α → Except Issue β} {items : List α} {b : β} :
    b ∈ compiled compile items ↔ ∃ item ∈ items, compile item = .ok b := by
  simp only [compiled, List.mem_filterMap]
  refine exists_congr fun item => and_congr_right fun _ => ?_
  cases compile item <;> simp [Except.toOption]

theorem compiled_cons_ok {α β : Type} {compile : α → Except Issue β} {item : α} {b : β}
    {items : List α} (h : compile item = .ok b) :
    compiled compile (item :: items) = b :: compiled compile items := by
  simp [compiled, h, Except.toOption]

theorem compiled_cons_error {α β : Type} {compile : α → Except Issue β} {item : α}
    {issue : Issue} {items : List α} (h : compile item = .error issue) :
    compiled compile (item :: items) = compiled compile items := by
  simp [compiled, h, Except.toOption]

theorem fieldOf_eq_ok {name : String} {field : Field} :
    fieldOf name = .ok field ↔ Field.ofName? name = some field := by
  unfold fieldOf
  split <;> simp_all

theorem Condition.compile_eq_ok {condition : Condition} {fragment : Fragment} :
    condition.compile = .ok fragment ↔
      ∃ field, Field.ofName? condition.field = some field ∧
        condition.operator.compile field condition.operand = .ok fragment := by
  unfold compile
  constructor
  · intro h
    cases hf : fieldOf condition.field with
    | error issue => simp [hf, bind, Except.bind] at h
    | ok field => exact ⟨field, fieldOf_eq_ok.mp hf, by simpa [hf, bind, Except.bind] using h⟩
  · rintro ⟨field, hf, h⟩
    simpa [fieldOf_eq_ok.mpr hf, bind, Except.bind] using h

/-- A condition that does not compile has no column left, or its operator makes no test. -/
theorem Condition.field_of_compile_eq_error {condition : Condition} {issue : Issue}
    (h : condition.compile = .error issue) :
    Field.ofName? condition.field = none ∨
      ∃ field, Field.ofName? condition.field = some field ∧
        condition.operator.compile field condition.operand = .error issue := by
  cases hf : Field.ofName? condition.field with
  | none => exact .inl rfl
  | some field =>
    refine .inr ⟨field, rfl, ?_⟩
    simpa [compile, fieldOf_eq_ok.mpr hf, bind, Except.bind] using h

theorem SortKey.compile_eq_ok {key : SortKey} {term : OrderTerm} :
    key.compile = .ok term ↔
      Field.ofName? key.field = some term.field ∧ key.order = .valid term.direction := by
  unfold compile
  cases hf : fieldOf key.field with
  | error issue =>
    have : Field.ofName? key.field ≠ some term.field := by
      rw [Ne, ← fieldOf_eq_ok, hf]
      simp
    simp [this, bind, Except.bind]
  | ok field =>
    obtain ⟨other, direction⟩ := term
    rw [← fieldOf_eq_ok, hf]
    cases key.order <;>
      simp [bind, Except.bind, pure, Except.pure, throw, throwThe, MonadExceptOf.throw]

theorem Operator.field_compile {operator : Operator} {field : Field} {operand : Json}
    {fragment : Fragment} (h : operator.compile field operand = .ok fragment) :
    fragment.field = field := by
  cases operator with
  | equals | notEquals =>
    simp only [compile, comparing] at h
    split at h <;> cases h <;> rfl
  | filled =>
    simp only [compile] at h
    cases h
    split <;> rfl
  | near | within | intersects | unknown => cases h
  | _ =>
    cases h
    rfl

theorem Condition.clean_of_compile {condition : Condition} {fragment : Fragment}
    (h : condition.compile = .ok fragment) : fragment.field.Clean := by
  obtain ⟨field, hf, ho⟩ := compile_eq_ok.mp h
  rw [Operator.field_compile ho]
  exact Field.clean_of_ofName? hf

theorem clean_of_mem_compiled {conditions : List Condition} :
    ∀ fragment ∈ compiled Condition.compile conditions, fragment.field.Clean := by
  intro fragment hm
  obtain ⟨condition, _, hc⟩ := mem_compiled.mp hm
  exact Condition.clean_of_compile hc

/-- Nothing but clean names reaches a statement. -/
theorem Filter.statement_clean (filter : Filter) (table : String) :
    (filter.statement table).Clean where
  table := cleanName_clean table
  conjuncts := clean_of_mem_compiled
  disjuncts := clean_of_mem_compiled
  order := by
    intro term hm
    obtain ⟨key, _, hk⟩ := mem_compiled.mp hm
    exact Field.clean_of_ofName? (SortKey.compile_eq_ok.mp hk).1

end Folio.Query
