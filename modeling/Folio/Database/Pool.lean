import Folio.Database.Location
import Folio.Database.Rows
import Folio.Folder

/-!
# Connections

Opening a URL gives a database without tables: one in memory, or a file that is
made if it is not there. A file that holds other text is only found out when a
statement looks into it.
-/

namespace Folio.Database

inductive OpenFault where
  | url (address : String) (fault : UrlFault)
  | store (fault : Fault)
  /-- A pool that may hold no connection waits for one in vain. -/
  | noConnection
  deriving DecidableEq, Repr

def OpenFault.message : OpenFault → String
  | .url address _ => "invalid database URL " ++ address
  | .store _ => "failed to open SQLite database"
  | .noConnection => "failed to open SQLite database"

/-- The reasons behind a failure, the outermost first. -/
def OpenFault.causes : OpenFault → List String
  | .url _ fault => fault.causes
  | .store fault => fault.causes
  | .noConnection => ["pool timed out while waiting for an open connection"]

inductive PoolFault where
  | closed
  deriving DecidableEq, Repr

def PoolFault.message : PoolFault → String
  | .closed => "database health check failed"

def PoolFault.causes : PoolFault → List String
  | .closed => ["attempted to acquire a connection on a closed pool"]

/-- The layer that keeps files in memory, whatever their names. -/
def memory : String := "memdb"

/-- The layers that can store a file. -/
def stores : List String :=
  ["unix", "unix-none", "unix-dotfile", "unix-excl", memory]

structure Pool where
  /-- Whether there is a database behind the connections, and not some other file. -/
  isDatabase : Bool
  isClosed : Bool
  deriving DecidableEq, Repr

/-- Whether a text is nothing to the database: one byte is what it leaves in a new file. -/
def isBlankFile (text : String) : Bool :=
  text.utf8ByteSize ≤ 1

/-- Opens a file, which is made if it may be and its folder is there. -/
def openFile (folder : Folder) (place : Location) : Except Fault Pool := do
  let steps ← (folder.settle place.file).mapError fun _ => .cannotOpen
  match folder.entry? steps with
  | some (.file text) => return ⟨isBlankFile text, false⟩
  | some .folder =>
    if place.access = .readOnly && steps ≠ ["/"] then throw .unreadable else throw .cannotOpen
  | none =>
    if place.access = .create && folder.entry? steps.dropLast = some .folder then
      return ⟨true, false⟩
    else throw .cannotOpen

/-- The bytes that the name of a file in memory may have. -/
def longestMemoryName : Nat := 1016

/-- Opens a place. A file without a name is a temporary one. -/
def openLocation (folder : Folder) (place : Location) : Except Fault Pool := do
  if let some store := place.store then
    if !stores.contains store then throw (.unknownStore store)
  if place.inMemory || place.file = ":memory:" || place.file.isEmpty then return ⟨true, false⟩
  else if place.store = some memory then
    if longestMemoryName < place.file.utf8ByteSize then throw .cannotOpen
    else return ⟨true, false⟩
  else openFile folder place

namespace Pool

/-- Opens a URL for at most so many connections at once. -/
def connect (folder : Folder) (url : String) (maxConnections : Nat) : Except OpenFault Pool := do
  let target ← (Target.ofUrl url).mapError (OpenFault.url url)
  if maxConnections = 0 then throw .noConnection
  (Location.ofTarget target >>= openLocation folder).mapError .store

def close (pool : Pool) : Pool :=
  { pool with isClosed := true }

def checkHealth (pool : Pool) : Except PoolFault Unit :=
  if pool.isClosed then .error .closed else .ok ()

/-- The rows of a statement. Its grammar is checked before the file is looked into. -/
def fetch (pool : Pool) (statement : Query.Statement) : Except Fault (List Json) :=
  if pool.isDatabase then run statement
  else do
    checkSyntax statement
    throw .notADatabase

end Pool

end Folio.Database
