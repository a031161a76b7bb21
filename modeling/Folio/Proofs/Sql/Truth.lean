import Folio.Proofs.Sql.Reader

/-!
# What conditions are worth

A test on a field holds, does not hold, or cannot be told. The connectives carry what
is unknown along. Nothing is assumed of the tests: each of them may have any value.
-/

namespace Folio.Sql

open Database (Condition)
open Database.Condition (chain?)

inductive Truth where
  | false
  | unknown
  | true
  deriving DecidableEq, Repr

namespace Truth

def ofBool (holds : Bool) : Truth :=
  if holds then .true else .false

def not : Truth → Truth
  | .false => .true
  | .unknown => .unknown
  | .true => .false

def and : Truth → Truth → Truth
  | .false, _ => .false
  | _, .false => .false
  | .true, .true => .true
  | _, _ => .unknown

def or : Truth → Truth → Truth
  | .true, _ => .true
  | _, .true => .true
  | .false, .false => .false
  | _, _ => .unknown

def all (values : List Truth) : Truth :=
  values.foldr and .true

def any (values : List Truth) : Truth :=
  values.foldr or .false

@[simp] theorem true_and (value : Truth) : and .true value = value := by
  cases value <;> rfl

@[simp] theorem and_true (value : Truth) : and value .true = value := by
  cases value <;> rfl

theorem and_eq_true {a b : Truth} : and a b = .true ↔ a = .true ∧ b = .true := by
  cases a <;> cases b <;> simp [and]

theorem and_assoc (a b c : Truth) : and (and a b) c = and a (and b c) := by
  cases a <;> cases b <;> cases c <;> rfl

@[simp] theorem false_or (value : Truth) : or .false value = value := by
  cases value <;> rfl

@[simp] theorem or_false (value : Truth) : or value .false = value := by
  cases value <;> rfl

theorem or_assoc (a b c : Truth) : or (or a b) c = or a (or b c) := by
  cases a <;> cases b <;> cases c <;> rfl

@[simp] theorem all_nil : all [] = .true := rfl

@[simp] theorem all_cons (value : Truth) (values : List Truth) :
    all (value :: values) = and value (all values) := rfl

theorem all_append (values others : List Truth) :
    all (values ++ others) = and (all values) (all others) := by
  induction values with
  | nil => simp
  | cons value values ih => simp [ih, and_assoc]

theorem all_eq_true {values : List Truth} :
    all values = .true ↔ ∀ value ∈ values, value = .true := by
  induction values with
  | nil => simp
  | cons value values ih => simp [and_eq_true, ih]

@[simp] theorem any_nil : any [] = .false := rfl

@[simp] theorem any_cons (value : Truth) (values : List Truth) :
    any (value :: values) = or value (any values) := rfl

end Truth

/-- The value of a condition when the tests on fields have the values `v`. -/
def truth (v : Condition → Truth) : Condition → Truth
  | .known holds => .ofBool holds
  | .not condition => (truth v condition).not
  | .and left right => (truth v left).and (truth v right)
  | .or left right => (truth v left).or (truth v right)
  | test => v test

section
variable (v : Condition → Truth)

/-- Joining from the left or from the right makes no difference. -/
theorem truth_gathered {join : Condition → Condition → Condition}
    {operation : Truth → Truth → Truth} {unit : Truth}
    (hj : ∀ left right, truth v (join left right) = operation (truth v left) (truth v right))
    (hunit : ∀ value, operation unit value = value ∧ operation value unit = value)
    (hassoc : ∀ a b c, operation (operation a b) c = operation a (operation b c))
    (before : Option Condition) (conditions : List Condition) :
    (gathered join before conditions).elim unit (truth v) =
      operation (before.elim unit (truth v)) ((conditions.map (truth v)).foldr operation unit) := by
  induction conditions generalizing before with
  | nil => exact ((hunit _).2).symm
  | cons condition conditions ih =>
    have hone : truth v (extended join before condition) =
        operation (before.elim unit (truth v)) (truth v condition) := by
      cases before with
      | none => exact ((hunit _).1).symm
      | some left => exact hj left condition
    calc (gathered join before (condition :: conditions)).elim unit (truth v)
        = (gathered join (some (extended join before condition)) conditions).elim unit (truth v) :=
          rfl
      _ = operation (truth v (extended join before condition))
            ((conditions.map (truth v)).foldr operation unit) := ih _
      _ = operation (before.elim unit (truth v))
            (((condition :: conditions).map (truth v)).foldr operation unit) := by
          rw [hone, hassoc]
          rfl

theorem truth_chain?_and (conditions : List Condition) :
    (chain? .and conditions).elim .true (truth v) = .all (conditions.map (truth v)) := by
  rw [chain?_eq_gathered, truth_gathered v (fun _ _ => rfl)
    (fun value => ⟨Truth.true_and value, Truth.and_true value⟩) Truth.and_assoc]
  exact Truth.true_and _

theorem truth_chain?_or (conditions : List Condition) :
    (chain? .or conditions).elim .false (truth v) = .any (conditions.map (truth v)) := by
  rw [chain?_eq_gathered, truth_gathered v (fun _ _ => rfl)
    (fun value => ⟨Truth.false_or value, Truth.or_false value⟩) Truth.or_assoc]
  exact Truth.false_or _

end

/-- The value of a text of conditions. Without conditions everything holds. -/
def value? (v : Condition → Truth) (text : String) : Option Truth :=
  if text.isEmpty then some .true else (read? text.toList).map (truth v)

end Folio.Sql
