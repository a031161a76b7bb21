import Folio.Json.Printer
import Folio.Json.Schema.Reader
import Folio.Query.Compile

/-!
# Compiled queries

A compiled query is what leaves the compiler: text, parameters and messages. It
is valid when there is no message, and only valid queries are run.
-/

namespace Folio.Query

structure CompiledQuery where
  sql : String
  params : List Json
  errors : List String

def Filter.compile (filter : Filter) (table : String) : CompiledQuery where
  sql := (filter.statement table).sql
  params := (filter.statement table).params
  errors := filter.errors

inductive QueryError where
  | invalidFilter (errors : List String)
  | database
  deriving DecidableEq, Repr

def QueryError.message : QueryError → String
  | .invalidFilter errors => "invalid filter: " ++ joined "; " errors
  | .database => "database error"

namespace CompiledQuery

def isValid (query : CompiledQuery) : Bool :=
  query.errors.isEmpty

def ensureValid (query : CompiledQuery) : Except QueryError CompiledQuery :=
  if query.errors.isEmpty then .ok query else .error (.invalidFilter query.errors)

abbrev schema : Json.Schema :=
  .record "QueryResult"
    (.cons "sql" true .string
      (.cons "params" true (.list .any) (.cons "errors" true (.list .string) .nil)))

def ofFields : schema.Value → CompiledQuery
  | (sql, params, errors, ()) => ⟨sql, params, errors⟩

def decode (value : Json) : Except Json.Mismatch CompiledQuery :=
  (schema.decode value).map .ofFields

/-- The members stand in the order in which they are written. -/
def encode (query : CompiledQuery) : Json :=
  .object [("sql", .string query.sql), ("params", .array query.params),
    ("errors", .array (query.errors.map .string))]

end CompiledQuery

end Folio.Query
