import Folio.Json.Fault

/-!
# Unreadable parts of a filter

A part that cannot be read is left out of the filter and reported, and the parts
beside it are kept.
-/

namespace Folio.Query

/-- The two lists of conditions of a group. -/
inductive Clause where
  | conjuncts
  | disjuncts
  deriving DecidableEq, Repr

def Clause.name : Clause → String
  | .conjuncts => "and"
  | .disjuncts => "or"

inductive Rejection where
  | group (failure : Json.Failure)
  | sort (failure : Json.Failure)
  | sortKey (index : Nat) (mismatch : Json.Mismatch)
  | conditions (clause : Clause)
  | condition (clause : Clause) (index : Nat) (mismatch : Json.Mismatch)

def Rejection.message : Rejection → String
  | .group failure => "Invalid where clause: " ++ failure.message
  | .sort failure => "Invalid sort clause: " ++ failure.message
  | .sortKey index mismatch =>
    "Invalid sort entry " ++ toString index ++ ": " ++ mismatch.message
  | .conditions clause =>
    "Invalid condition list: '" ++ clause.name ++ "' must be an array"
  | .condition clause index mismatch =>
    "Invalid condition " ++ clause.name ++ "[" ++ toString index ++ "]: " ++ mismatch.message

/-- What a list of attempts gave: the values, and the rejections in the same order. -/
structure Sorted (α : Type) where
  kept : List α
  rejected : List Rejection

/-- Reads each item by itself. -/
def Sorted.ofItems {α β : Type} (read : β → Except Json.Mismatch α)
    (reject : Nat → Json.Mismatch → Rejection) (items : List β) : Sorted α :=
  let attempts := items.mapIdx fun index item => (read item).mapError (reject index)
  { kept := attempts.filterMap Except.toOption
    rejected := attempts.filterMap fun
      | .ok _ => none
      | .error rejection => some rejection }

end Folio.Query
