import Folio.Cache.Session

/-!
# Runs of a cache

A client makes one step after the other and reads the clock before each of them, and once
more behind a load. A run is steady when no reading is earlier than the one before it, and
when every new key finds room, so that no entry has to go before its time.
-/

namespace Folio.Cache

/-- A step, and what the clock shows when it begins. -/
structure Timed where
  time : Int
  step : Step

/-- A cache in which nothing was stored yet. -/
def Session.opened (settings : Settings) (now : Int) : Session :=
  ⟨.ofSettings settings, now⟩

def Session.stepAt (session : Session) (timed : Timed) : Session × Answer :=
  { session with now := timed.time }.step timed.step

def Session.run (session : Session) (steps : List Timed) : Session :=
  steps.foldl (fun session timed => (session.stepAt timed).1) session

@[simp] theorem Session.run_cons (session : Session) (timed : Timed) (steps : List Timed) :
    session.run (timed :: steps) = (session.stepAt timed).1.run steps := rfl

/-- The key is stored already, or one more entry fits. -/
def HasRoom (cache : Cache) (key : String) : Prop :=
  cache.size < capacity ∨ key ∈ cache.entries

/-- No new key is stored while the cache is full. A load begins with a look at its key. -/
def RoomFor (cache : Cache) (now : Int) : Step → Prop
  | .set key _ _ => cache.HasRoom key
  | .getOrSet key _ _ (.ok _) => (cache.look now key).1.HasRoom key
  | _ => True

structure Session.Proceeds (session : Session) (timed : Timed) : Prop where
  time : session.now ≤ timed.time
  load : timed.time ≤ (session.stepAt timed).1.now
  room : session.cache.RoomFor timed.time timed.step

def Session.Steady (session : Session) : List Timed → Prop
  | [] => True
  | timed :: steps => session.Proceeds timed ∧ (session.stepAt timed).1.Steady steps

-- ---------------------------------------------------------------------------
-- Looks and stores
-- ---------------------------------------------------------------------------

section
variable {cache : Cache} {now : Int} {key : String}

theorem look_of_none (h : cache.entries[key]? = none) :
    cache.look now key = (cache, .absent) := by
  simp [look, h]

theorem look_of_live {entry : Entry} (h : cache.entries[key]? = some entry)
    (hl : now ≤ entry.expiresAt) :
    cache.look now key = (cache, .live entry.data (entry.expiresAt - now).toNat) := by
  have hx : ¬ entry.expiresAt < now := by omega
  simp [look, h, Entry.isExpired, hx]

theorem look_of_expired {entry : Entry} (h : cache.entries[key]? = some entry)
    (hx : entry.expiresAt < now) : cache.look now key = (cache.erase key, .expired) := by
  simp [look, h, Entry.isExpired, hx]

theorem look_settings (cache : Cache) (now : Int) (key : String) :
    (cache.look now key).1.settings = cache.settings := by
  unfold look
  split
  · rfl
  · split <;> rfl

theorem size_look_le (cache : Cache) (now : Int) (key : String) :
    (cache.look now key).1.size ≤ cache.size := by
  unfold look
  split
  · exact Nat.le_refl _
  · split
    · exact Std.HashMap.size_erase_le
    · exact Nat.le_refl _

theorem set_settings (cache : Cache) (now : Int) (key : String) (data : Json)
    (seconds : Option Nat) : (cache.set now key data seconds).1.settings = cache.settings := by
  have hroom : (cache.makeRoom now key).settings = cache.settings := by
    unfold makeRoom evict
    split
    · dsimp only
      split
      · rfl
      · split <;> rfl
    · rfl
  unfold set
  dsimp only
  split <;> exact hroom

theorem HasRoom.makeRoom (h : cache.HasRoom key) (now : Int) :
    cache.makeRoom now key = cache := by
  unfold Cache.makeRoom
  rw [if_neg]
  intro hf
  rw [Bool.and_eq_true, decide_eq_true_eq, Bool.not_eq_true'] at hf
  rcases h with hs | hm
  · omega
  · rw [Std.HashMap.contains_iff_mem.mpr hm] at hf
    cases hf.2

-- ---------------------------------------------------------------------------
-- Requests with a loader
-- ---------------------------------------------------------------------------

section
variable {ε : Type} {load : Int → Load ε}

theorem getOrSet_of_hit {data : Json} (h : (cache.look now key).2.data? = some data)
    (seconds : Option Nat) (load : Int → Load ε) :
    cache.getOrSet now key seconds load = ((cache.look now key).1, .cached data) := by
  simp [getOrSet, get, h]

variable (h : (cache.look now key).2.data? = none) (seconds : Option Nat)
include h

theorem getOrSet_of_error {error : ε} (hl : (load now).result = .error error) :
    cache.getOrSet now key seconds load = ((cache.look now key).1, .failed error) := by
  simp [getOrSet, get, h, hl]

theorem getOrSet_of_miss {data : Json} (hl : (load now).result = .ok data) :
    cache.getOrSet now key seconds load =
      let loaded := (cache.look now key).1.set (load now).finishedAt key data seconds
      (loaded.1, match loaded.2 with
        | .ok () => .loaded data
        | .error fault => .fault fault) := by
  simp only [getOrSet, get, h, hl]
  split <;> simp_all

end

-- ---------------------------------------------------------------------------
-- Steps
-- ---------------------------------------------------------------------------

namespace Session

variable (session : Session) (key : String) (seconds : Option Nat)

theorem step_set (data : Json) :
    session.step (.set key data seconds) =
      ({ session with cache := (session.cache.set session.now key data seconds).1 },
        match (session.cache.set session.now key data seconds).2 with
        | .ok () => .done
        | .error fault => .fault fault) := by
  simp only [step]
  split <;> simp_all

variable {session key}

theorem step_getOrSet (session : Session) (key : String) (duration : Int)
    (result : Except Json Json) :
    session.step (.getOrSet key seconds duration result) =
      let asked := session.cache.getOrSet session.now key seconds fun start =>
        ⟨start + duration, result⟩
      (⟨asked.1, asked.2.endOf session.now duration⟩, .outcome asked.2) := rfl

/-- What is found is the answer, and nothing is loaded. -/
theorem step_getOrSet_of_some {data : Json}
    (hf : (session.cache.look session.now key).2.data? = some data) (duration : Int)
    (result : Except Json Json) :
    session.step (.getOrSet key seconds duration result) =
      ({ session with cache := (session.cache.look session.now key).1 },
        .outcome (.cached data)) := by
  rw [step_getOrSet, getOrSet_of_hit hf]
  rfl

section
variable (hf : (session.cache.look session.now key).2.data? = none) (duration : Int)
include hf

theorem step_getOrSet_error (error : Json) :
    session.step (.getOrSet key seconds duration (.error error)) =
      (⟨(session.cache.look session.now key).1, session.now + duration⟩,
        .outcome (.failed error)) := by
  rw [step_getOrSet, getOrSet_of_error hf seconds rfl]
  rfl

theorem step_getOrSet_ok (data : Json) :
    session.step (.getOrSet key seconds duration (.ok data)) =
      let loaded := (session.cache.look session.now key).1.set (session.now + duration) key data
        seconds
      (⟨loaded.1, session.now + duration⟩,
        .outcome (match loaded.2 with
          | .ok () => .loaded data
          | .error fault => .fault fault)) := by
  rw [step_getOrSet, getOrSet_of_miss hf seconds rfl]
  dsimp only
  split <;> rfl

end

/-- A load that takes no time or some moves the clock forward. -/
theorem now_le_getOrSet {duration : Int} (hd : 0 ≤ duration) (key : String)
    (result : Except Json Json) :
    session.now ≤ (session.step (.getOrSet key seconds duration result)).1.now := by
  show session.now ≤ Outcome.endOf session.now duration _
  unfold Outcome.endOf
  split
  · exact Int.le_refl _
  · omega

theorem stepAt_settings (session : Session) (timed : Timed) :
    (session.stepAt timed).1.cache.settings = session.cache.settings := by
  obtain ⟨time, step⟩ := timed
  rw [stepAt]
  cases step with
  | get key => exact look_settings _ _ _
  | look key => exact look_settings _ _ _
  | set key data seconds =>
    rw [step_set]
    exact set_settings _ _ _ _ _
  | delete key => rfl
  | invalidate pattern => rfl
  | clear => rfl
  | getOrSet key seconds duration result =>
    cases hf : (session.cache.look time key).2.data? with
    | some data =>
      rw [step_getOrSet_of_some seconds hf]
      exact look_settings _ _ _
    | none =>
      cases result with
      | error error =>
        rw [step_getOrSet_error seconds hf]
        exact look_settings _ _ _
      | ok data =>
        rw [step_getOrSet_ok seconds hf]
        exact (set_settings _ _ _ _ _).trans (look_settings _ _ _)

theorem run_settings (session : Session) (steps : List Timed) :
    (session.run steps).cache.settings = session.cache.settings := by
  induction steps generalizing session with
  | nil => rfl
  | cons timed steps ih => rw [run_cons, ih, stepAt_settings]

end Session

end

end Folio.Cache
