import Folio.Template.Scope
import Mathlib.Tactic.SplitIfs

/-!
# Scopes as merged data

Names are looked up layer by layer, from the innermost loop outwards. One object gives the same
answers: for each loop, from the outside in, it gets the element as `.`, then the element's own
members, and then the names of the loop. So it makes no difference whether data is merged before
a body is rendered or found when it is asked for.
-/

namespace Folio.Template

open Json (Members)

/-- One turn of a loop. -/
structure Turn where
  element : Json
  index : Nat
  size : Nat

/-- The scope inside of the turns, the innermost first, over an object. -/
def Scope.nested (members : Members) : List Turn → Scope
  | [] => .root (.object members)
  | turn :: outer => .item turn.element turn.index turn.size (nested members outer)

-- ---------------------------------------------------------------------------
-- Merged data
-- ---------------------------------------------------------------------------

/-- Adds the members of an object to others. No key stands twice in an object, so it does not
matter with which end one begins. -/
def spread (value : Json) (members : Members) : Members :=
  match value with
  | .object own => own.foldr (fun member members => members.insert member.1 member.2) members
  | _ => members

/-- The data inside of a turn, where a later member of one name replaces an earlier one. -/
def Turn.extend (turn : Turn) (members : Members) : Members :=
  let members := members.insert "." turn.element
  let members := spread turn.element members
  let members := members.insert "@index" (.int turn.index)
  let members := members.insert "@first" (.bool (turn.index = 0))
  members.insert "@last" (.bool (turn.index + 1 = turn.size))

def context (members : Members) (turns : List Turn) : Members :=
  turns.foldr Turn.extend members

/-- Objects are walked by key and arrays by position. From other values nothing leads on. -/
def follow? : Json → List String → Option Json
  | value, [] => some value
  | .object members, key :: keys =>
    (Members.get? members key).bind fun value => follow? value keys
  | .array items, key :: keys =>
    (position? key).bind fun n => items[n]?.bind fun value => follow? value keys
  | _, _ :: _ => none

/-- The value at a dotted path. The lone point is a name, and the empty path leads nowhere. -/
def lookup? (members : Members) (path : List Char) : Option Json :=
  if path = [] then none
  else if path = ['.'] then members.get? "."
  else follow? (.object members) ((path.splitOn '.').map String.ofList)

-- ---------------------------------------------------------------------------
-- Names
-- ---------------------------------------------------------------------------

theorem get?_spread (value : Json) (members : Members) (name : String) :
    (spread value members).get? name = (field? value name).or (members.get? name) := by
  cases value with
  | object own =>
    simp only [spread, field?]
    induction own with
    | nil => rfl
    | cons member own ih =>
      rw [List.foldr_cons, Members.get?_insert, Members.get?_cons, ih]
      split <;> rfl
  | _ => rfl

theorem loopName?_eq (index size : Nat) (name : String) :
    loopName? index size name =
      if name = "@last" then some (.bool (index + 1 = size))
      else if name = "@first" then some (.bool (index = 0))
      else if name = "@index" then some (.int index)
      else none := by
  unfold loopName?
  split <;> simp_all

theorem Turn.get?_extend (turn : Turn) (members : Members) (name : String) :
    (turn.extend members).get? name =
      (loopName? turn.index turn.size name).or
        ((field? turn.element name).or
          (if name = "." then some turn.element else members.get? name)) := by
  simp only [extend, Members.get?_insert, get?_spread, loopName?_eq]
  split_ifs <;> rfl

/-- The layers of a scope answer for a name as the merged data does. -/
theorem Scope.name?_nested (members : Members) (turns : List Turn) (name : String) :
    (nested members turns).name? name = (context members turns).get? name := by
  induction turns with
  | nil => rfl
  | cons turn outer ih =>
    have hcontext : context members (turn :: outer) = turn.extend (context members outer) := rfl
    rw [hcontext, Turn.get?_extend, ← ih, nested, name?]
    cases loopName? turn.index turn.size name with
    | some value => rfl
    | none =>
      cases field? turn.element name with
      | some value => rfl
      | none => rfl

-- ---------------------------------------------------------------------------
-- Paths
-- ---------------------------------------------------------------------------

theorem walk_eq_follow? (value : Json) (keys : List String) :
    Scope.walk value keys = follow? value keys := by
  induction keys generalizing value with
  | nil => simp [Scope.walk, follow?]
  | cons key keys ih =>
    have hstep : Scope.walk value (key :: keys) =
        (child? value key).bind fun value => Scope.walk value keys := rfl
    simp only [hstep, ih]
    cases value with
    | object members => rw [follow?, child?]
    | array items => rw [follow?, child?, Option.bind_assoc]
    | _ =>
      rw [follow?]
      · rfl
      all_goals simp

/-- What a path leads to in nested loops is what it leads to in the merged data. -/
theorem Scope.resolve_nested (members : Members) (turns : List Turn) (path : List Char) :
    (nested members turns).resolve path = lookup? (context members turns) path := by
  by_cases hempty : path = []
  · simp [resolve, lookup?, hempty]
  by_cases hpoint : path = ['.']
  · subst hpoint
    simp [resolve, lookup?, steps, name?_nested, walk]
  -- The first step is a name of the scope, and so a key of the merged data.
  obtain ⟨first, rest, hs⟩ := List.exists_cons_of_ne_nil (List.splitOn_ne_nil '.' path)
  have hsteps : steps path = String.ofList first :: rest.map String.ofList := by
    rw [steps, if_neg hpoint, hs, List.map_cons]
  rw [resolve, if_neg (by simpa using hempty), hsteps, lookup?, if_neg hempty, if_neg hpoint, hs,
    List.map_cons, follow?]
  simp only [name?_nested, walk_eq_follow?]

end Folio.Template
