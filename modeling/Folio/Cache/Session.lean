import Folio.Cache.Basic

/-!
# Sessions with a cache

A session is a cache under a clock. Each step of a client changes both and has
an answer; only a load moves the clock.
-/

namespace Folio.Cache

structure Session where
  cache : Cache
  now : Int

inductive Step where
  | get (key : String)
  | look (key : String)
  | set (key : String) (data : Json) (seconds : Option Nat)
  | delete (key : String)
  | invalidate (pattern : String)
  | clear
  /-- A load that moves the clock by `duration` nanoseconds if it is run. -/
  | getOrSet (key : String) (seconds : Option Nat) (duration : Int) (result : Except Json Json)

inductive Answer where
  | done
  | data (value : Option Json)
  | found (lookup : Lookup)
  | existed (b : Bool)
  | removed (count : Nat)
  | outcome (outcome : Outcome Json)
  | fault (fault : Fault)

/-- The time of a load's end, if one was run. -/
def Outcome.endOf {ε : Type} (now duration : Int) : Outcome ε → Int
  | .cached _ => now
  | _ => now + duration

def Session.step (session : Session) : Step → Session × Answer
  | .get key =>
    let (cache, value) := session.cache.get session.now key
    ({ session with cache }, .data value)
  | .look key =>
    let (cache, found) := session.cache.look session.now key
    ({ session with cache }, .found found)
  | .set key data seconds =>
    match session.cache.set session.now key data seconds with
    | (cache, .ok ()) => ({ session with cache }, .done)
    | (cache, .error fault) => ({ session with cache }, .fault fault)
  | .delete key =>
    let (cache, existed) := session.cache.delete key
    ({ session with cache }, .existed existed)
  | .invalidate pattern =>
    let (cache, count) := session.cache.invalidate pattern
    ({ session with cache }, .removed count)
  | .clear => ({ session with cache := session.cache.clear }, .done)
  | .getOrSet key seconds duration result =>
    let (cache, outcome) :=
      session.cache.getOrSet session.now key seconds fun start => ⟨start + duration, result⟩
    (⟨cache, outcome.endOf session.now duration⟩, .outcome outcome)

end Folio.Cache
