import Std.Data.HashMap
import Folio.Cache.Glob
import Folio.Cache.Settings
import Folio.Json.Basic
import Folio.Numeral

/-!
# A cache whose entries expire

Times are nanoseconds on a clock that the caller reads, before or after its zero.
An entry is live up to its expiry time and including it. Looking at an expired entry
drops it; other expired entries stay until room is needed.
-/

namespace Folio

structure Cache.Entry where
  data : Json
  insertedAt : Int
  expiresAt : Int

def Cache.Entry.isExpired (entry : Cache.Entry) (now : Int) : Bool :=
  entry.expiresAt < now

structure Cache where
  settings : Cache.Settings
  entries : Std.HashMap String Cache.Entry

namespace Cache

/-- The number of entries from which a new key needs room. -/
def capacity : Nat := 10000

def second : Nat := 1000000000

/-- A span of nanoseconds in seconds. The whole seconds are rounded by themselves. -/
def secondsOf (span : Nat) : Float :=
  (span / second).toUInt64.toFloat + (span % second).toFloat / second.toFloat

/-- The last second that the clock can show. -/
def lastSecond : Nat := Numeral.largest 63

inductive Fault where
  /-- An expiry time would lie beyond the end of the clock. -/
  | clockOverflow
  deriving DecidableEq, Repr

def Fault.message : Fault → String
  | .clockOverflow => "overflow when adding duration to instant"

/-- What a look at a key finds. A live entry has some nanoseconds left. -/
inductive Lookup where
  | live (data : Json) (left : Nat)
  | absent
  | expired

def Lookup.data? : Lookup → Option Json
  | .live data _ => some data
  | .absent => none
  | .expired => none

def ofSettings (settings : Settings) : Cache := ⟨settings, ∅⟩

def size (cache : Cache) : Nat :=
  cache.entries.size

def isEmpty (cache : Cache) : Bool :=
  cache.entries.isEmpty

def erase (cache : Cache) (key : String) : Cache :=
  { cache with entries := cache.entries.erase key }

def look (cache : Cache) (now : Int) (key : String) : Cache × Lookup :=
  match cache.entries[key]? with
  | none => (cache, .absent)
  | some entry =>
    if entry.isExpired now then (cache.erase key, .expired)
    else (cache, .live entry.data (entry.expiresAt - now).toNat)

def get (cache : Cache) (now : Int) (key : String) : Cache × Option Json :=
  let (cache, found) := cache.look now key
  (cache, found.data?)

/-- The older one of two entries; the first one if they are of one age. -/
def older (first second : String × Entry) : String × Entry :=
  if second.2.insertedAt < first.2.insertedAt then second else first

def oldest? (cache : Cache) : Option (String × Entry) :=
  match cache.entries.toList with
  | [] => none
  | first :: rest => some (rest.foldl older first)

def dropExpired (cache : Cache) (now : Int) : Cache :=
  { cache with entries := cache.entries.filter fun _ entry => !entry.isExpired now }

/-- Makes room for an entry: without the expired ones, and if that does not help
without the oldest. -/
def evict (cache : Cache) (now : Int) : Cache :=
  let kept := cache.dropExpired now
  if kept.size < capacity then kept
  else
    match kept.oldest? with
    | some (key, _) => kept.erase key
    | none => kept

def makeRoom (cache : Cache) (now : Int) (key : String) : Cache :=
  if capacity ≤ cache.size && !cache.entries.contains key then cache.evict now else cache

/-- The expiry time of an entry that lives for some seconds, if the clock can show it. -/
def expiry (now : Int) (seconds : Nat) : Except Fault Int :=
  if lastSecond < now / second + seconds then .error .clockOverflow
  else .ok (now + seconds * second)

/-- Stores a value. Room is made before the expiry time is known to be good. -/
def set (cache : Cache) (now : Int) (key : String) (data : Json) (seconds : Option Nat) :
    Cache × Except Fault Unit :=
  let roomy := cache.makeRoom now key
  match expiry now (seconds.getD cache.settings.seconds) with
  | .error fault => (roomy, .error fault)
  | .ok expiresAt =>
    ({ roomy with entries := roomy.entries.insert key ⟨data, now, expiresAt⟩ }, .ok ())

def delete (cache : Cache) (key : String) : Cache × Bool :=
  (cache.erase key, cache.entries.contains key)

/-- Drops the keys that a pattern describes, and counts them. Patterns of every size are taken
here. A matcher that compiles its patterns under a bound refuses those that get too large, and
then drops nothing and counts none; that bound is left out. -/
def invalidate (cache : Cache) (pattern : String) : Cache × Nat :=
  let kept := cache.entries.filter fun key _ => !globMatches pattern key
  ({ cache with entries := kept }, cache.entries.size - kept.size)

def clear (cache : Cache) : Cache :=
  { cache with entries := ∅ }

/-- How a load that began at some time ended. -/
structure Load (ε : Type) where
  finishedAt : Int
  result : Except ε Json

inductive Outcome (ε : Type) where
  | cached (data : Json)
  | loaded (data : Json)
  | failed (error : ε)
  | fault (fault : Fault)

/-- The value of a key, which is loaded and stored if it is not there. The clock
is read again after the load. -/
def getOrSet {ε : Type} (cache : Cache) (now : Int) (key : String) (seconds : Option Nat)
    (load : Int → Load ε) : Cache × Outcome ε :=
  match cache.get now key with
  | (cache, some data) => (cache, .cached data)
  | (cache, none) =>
    let done := load now
    match done.result with
    | .error error => (cache, .failed error)
    | .ok data =>
      match cache.set done.finishedAt key data seconds with
      | (cache, .ok ()) => (cache, .loaded data)
      | (cache, .error fault) => (cache, .fault fault)

end Cache

end Folio
