/-!
# What a database reports

Each fault of the database has a code and a message of its own. The layer that
talks to it puts its own words in front, so a report shows the fault twice. That
layer also binds the parameters, and reports those that it cannot bind.
-/

namespace Folio.Database

inductive Fault where
  | cannotOpen
  | notADatabase
  /-- A folder opened like a file, which cannot be read. -/
  | unreadable
  | unknownStore (name : String)
  /-- A URI that names a host other than the one the program runs on. -/
  | foreignHost (name : String)
  | noSuchMode (kind value : String)
  | accessNotAllowed (value : String)
  | nullInName
  | unexpected (token : String)
  | unrecognized (token : String)
  | incomplete
  | tooDeep
  | tooManyParameters
  | tooManyColumns
  | noSuchTable (name : String)
  | noSuchColumn (name : String)
  /-- A number that stands for a result column, but for none there is. -/
  | noSuchPosition (term columns : Nat)
  | tooManyTerms
  /-- A hexadecimal number of more than 64 bits. -/
  | numberTooLarge (text : String)
  /-- A name read as a parameter, which has to be a number. -/
  | namedParameter (name : String)
  /-- A parameter with the number zero, which stops the layer that binds. -/
  | noParameter
  /-- A limit or an offset that has no value. -/
  | missingBound
  | malformedDocument
  | badPath (path : String)
  | patternTooLong
  deriving DecidableEq, Repr

def Fault.code : Fault → Nat
  | .cannotOpen => 14
  | .notADatabase => 26
  | .unreadable => 266
  | .accessNotAllowed _ => 3
  | .missingBound => 20
  | _ => 1

def ordinal (n : Nat) : String :=
  let ending :=
    if n % 100 / 10 = 1 then "th"
    else if n % 10 = 1 then "st"
    else if n % 10 = 2 then "nd"
    else if n % 10 = 3 then "rd"
    else "th"
  toString n ++ ending

def Fault.text : Fault → String
  | .cannotOpen => "unable to open database file"
  | .notADatabase => "file is not a database"
  | .unreadable => "disk I/O error"
  | .unknownStore name => "no such vfs: " ++ name
  | .foreignHost name => "invalid uri authority: " ++ name
  | .noSuchMode kind value => "no such " ++ kind ++ " mode: " ++ value
  | .accessNotAllowed value => "access mode not allowed: " ++ value
  | .nullInName => "filename passed to SQLite must not contain nul bytes"
  | .unexpected token => "near \"" ++ token ++ "\": syntax error"
  | .unrecognized token => "unrecognized token: \"" ++ token ++ "\""
  | .incomplete => "incomplete input"
  | .tooDeep => "Expression tree is too large (maximum depth 1000)"
  | .tooManyParameters => "too many SQL variables"
  | .tooManyColumns => "too many columns in result set"
  | .noSuchTable name => "no such table: " ++ name
  | .noSuchColumn name => "no such column: " ++ name
  | .noSuchPosition term columns =>
    ordinal term ++ " ORDER BY term out of range - should be between 1 and " ++ toString columns
  | .tooManyTerms => "too many terms in ORDER BY clause"
  | .numberTooLarge text => "hex literal too big: " ++ text
  | .namedParameter name =>
    "encountered unexpected or invalid data: " ++
      "parameters with non-integer names are not currently supported: " ++ name ++
      " (sqlx_sqlite::arguments:93)"
  | .noParameter => "attempted to communicate with a crashed background worker"
  | .missingBound => "datatype mismatch"
  | .malformedDocument => "malformed JSON"
  | .badPath path => "bad JSON path: '$." ++ path ++ "'"
  | .patternTooLong => "LIKE or GLOB pattern too complex"

def Fault.message (fault : Fault) : String :=
  "(code: " ++ toString fault.code ++ ") " ++ fault.text

/-- The reasons behind a failure, the outermost first. -/
def Fault.causes (fault : Fault) : List String :=
  match fault with
  | .namedParameter _ => [fault.text]
  | .noParameter => [fault.text]
  | .nullInName => ["error communicating with database: " ++ fault.text, fault.text]
  | fault => ["error returned from database: " ++ fault.message, fault.message]

end Folio.Database
