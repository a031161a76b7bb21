import Folio.Cache.Settings
import Folio.Numeral
import Folio.Query.Parameters

/-!
# Configuration

Read from named variables, in a fixed order: the first bad number is reported
whatever the later ones hold.
-/

namespace Folio

structure Config where
  databaseUrl : String
  maxConnections : Nat
  maxLimit : Int
  cacheSeconds : Nat
  cachePrefix : String
  deriving DecidableEq, Repr

namespace Config

/-- A variable that does not hold a number of its range. -/
structure Invalid where
  name : String
  wanted : String
  fault : Numeral.Fault
  deriving DecidableEq, Repr

def Invalid.context (invalid : Invalid) : String :=
  invalid.name ++ " must be a valid " ++ invalid.wanted

/-- The number that a variable holds, or the default if it is not set. -/
def number (lookup : String → Option String) (name wanted : String) (range : Numeral.Range)
    (unset : Int) : Except Invalid Int :=
  match lookup name with
  | none => .ok unset
  | some text => (range.read text.toList).mapError (Invalid.mk name wanted)

def ofLookup (lookup : String → Option String) : Except Invalid Config := do
  let maxConnections ← number lookup "DATABASE_MAX_CONNECTIONS" "u32" (.unsigned 32) 5
  let maxLimit ← number lookup "QUERY_MAX_LIMIT" "integer" (.signed 64) Query.defaultMaxLimit
  let cacheSeconds ← number lookup "CACHE_TTL_SECS" "u64" (.unsigned 64) 300
  return {
    databaseUrl := (lookup "DATABASE_URL").getD "sqlite::memory:"
    maxConnections := maxConnections.toNat
    maxLimit
    cacheSeconds := cacheSeconds.toNat
    cachePrefix := (lookup "CACHE_KEY_PREFIX").getD "api" }

def cacheSettings (config : Config) : Cache.Settings :=
  ⟨config.cacheSeconds, config.cachePrefix⟩

end Config

end Folio
