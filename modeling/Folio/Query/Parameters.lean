import Folio.Numeral
import Folio.Query.Codec
import Folio.Text.Blank

/-!
# Filters from query strings

A list page passes its filter as named texts: a JSON group and a JSON sort list,
two plain equality tests, and the page. A part that cannot be read is reported
and left out. The limit never exceeds a cap.
-/

namespace Folio.Query

/-- The cap of the limit where no other is configured. -/
def defaultMaxLimit : Int := 1000

/-- Parameters that are an equality test on the field of the same name. -/
def plainFields : List String :=
  ["status", "collection_id"]

/-- The parameters of a query string. An empty value is no value. -/
structure Parameters where
  lookup : String → Option String

def Parameters.get? (parameters : Parameters) (name : String) : Option String :=
  (parameters.lookup name).filter (!·.isEmpty)

/-- An integer at the start of a text, behind white space. -/
def leadingInteger? (text : String) : Option Int :=
  Numeral.leading (Numeral.largest 63) (Text.trimStart text.toList)

/-- The group of the `where` parameter, or why it cannot be read. -/
def Parameters.group (parameters : Parameters) : Option Group × List Rejection :=
  match parameters.get? "where" with
  | none => (none, [])
  | some text =>
    match Group.parse text with
    | .ok group => (some group, [])
    | .error failure => (none, [.group failure])

def plainCondition (field value : String) : Condition :=
  ⟨field, .equals, .string value⟩

/-- The equality tests, in the order of `plainFields`. -/
def Parameters.plainConditions (parameters : Parameters) : List Condition :=
  plainFields.filterMap fun field => (parameters.get? field).map (plainCondition field)

/-- Adds conjuncts to a group, which comes into being with the first of them. -/
def withConjuncts (group : Option Group) (conditions : List Condition) : Option Group :=
  if conditions.isEmpty then group
  else
    let group := group.getD .empty
    some { group with conjuncts := group.conjuncts ++ conditions }

/-- The sort keys of the `sort` parameter. Each entry is read by itself. -/
def Parameters.sort (parameters : Parameters) : Sorted SortKey :=
  match parameters.get? "sort" with
  | none => ⟨[], []⟩
  | some text =>
    match Json.Schema.parse (.list .any) text with
    | .ok entries => .ofItems SortKey.decode Rejection.sortKey entries
    | .error failure => ⟨[], [.sort failure]⟩

def Filter.ofParameters (parameters : Parameters) (maxLimit : Int) : Filter :=
  let (group, groupRejected) := parameters.group
  let sort := parameters.sort
  { group := withConjuncts group parameters.plainConditions
    limit := ((parameters.get? "limit").bind leadingInteger?).map (min · maxLimit)
    offset := (parameters.get? "offset").bind leadingInteger?
    sort := sort.kept
    rejected := (groupRejected ++ sort.rejected).map Rejection.message }

end Folio.Query
