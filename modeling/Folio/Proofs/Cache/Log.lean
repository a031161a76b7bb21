import Folio.Proofs.Cache.Run

/-!
# The cache as a log

A log lists what was stored and what was taken away, the latest first. Of a key it knows
the latest store behind which the key was not taken away, and that store answers until its
time is up. Looks at keys and loads that fail are not in it.

A cache keeps less than the log tells: entries whose time is up may be gone. With a clock
that does not go back nobody can tell, so every answer of a steady run is the one that its
log gives.
-/

namespace Folio.Cache

/-- A value with the time at which it was stored and the seconds that it lives. -/
structure Store where
  data : Json
  time : Int
  seconds : Nat

def Store.until (store : Store) : Int :=
  store.time + store.seconds * second

/-- The end of the store is a time that the clock can show. -/
def Store.Fits (store : Store) : Prop :=
  store.time / second + store.seconds ≤ lastSecond

instance (store : Store) : Decidable store.Fits :=
  inferInstanceAs (Decidable (_ ≤ _))

/-- A store with the life that was asked for, or else the one that is set. -/
def Settings.store (settings : Settings) (time : Int) (data : Json) (seconds : Option Nat) :
    Store :=
  ⟨data, time, seconds.getD settings.seconds⟩

inductive Event where
  | stored (key : String) (store : Store)
  | deleted (key : String)
  | invalidated (pattern : String)
  | cleared

abbrev Log := List Event

namespace Log

/-- The latest store of a key, if the key was not taken away since. -/
def latest? (log : Log) (key : String) : Option Store :=
  match log with
  | [] => none
  | .stored other store :: log => if other = key then some store else latest? log key
  | .deleted other :: log => if other = key then none else latest? log key
  | .invalidated pattern :: log => if globMatches pattern key then none else latest? log key
  | .cleared :: _ => none

/-- The store that answers for a key. -/
def live? (log : Log) (now : Int) (key : String) : Option Store :=
  (log.latest? key).filter (now ≤ ·.until)

/-- A store that does not fit is not completed. -/
def record (log : Log) (key : String) (store : Store) : Log :=
  if store.Fits then .stored key store :: log else log

def extend (settings : Settings) (log : Log) (timed : Timed) : Log :=
  match timed.step with
  | .get _ | .look _ => log
  | .set key data seconds => log.record key (settings.store timed.time data seconds)
  | .delete key => .deleted key :: log
  | .invalidate pattern => .invalidated pattern :: log
  | .clear => .cleared :: log
  | .getOrSet key seconds duration result =>
    match log.live? timed.time key, result with
    | none, .ok data =>
      log.record key (settings.store (timed.time + duration) data seconds)
    | _, _ => log

def ofRun (settings : Settings) (steps : List Timed) : Log :=
  steps.foldl (extend settings) []

/-- What a look may find. A live entry has the time left that its store has. -/
def Finds (log : Log) (now : Int) (key : String) (found : Lookup) : Prop :=
  match log.live? now key with
  | some store => found = .live store.data (store.until - now).toNat
  | none => found = .absent ∨ found = .expired

/-- The answers that are right when nothing but the log is known. How many keys are taken
away, and whether one was there, depends on which entries are gone already. -/
def Allows (settings : Settings) (log : Log) (timed : Timed) (answer : Answer) : Prop :=
  match timed.step with
  | .get key => answer = .data ((log.live? timed.time key).map Store.data)
  | .look key => ∃ found, answer = .found found ∧ log.Finds timed.time key found
  | .set _ data seconds =>
    answer =
      if (settings.store timed.time data seconds).Fits then .done else .fault .clockOverflow
  | .getOrSet key seconds duration result =>
    answer = .outcome (
      match log.live? timed.time key, result with
      | some store, _ => .cached store.data
      | none, .error error => .failed error
      | none, .ok data =>
        if (settings.store (timed.time + duration) data seconds).Fits then .loaded data
        else .fault .clockOverflow)
  | .delete _ | .invalidate _ | .clear => True

end Log

-- ---------------------------------------------------------------------------
-- What a cache keeps of a log
-- ---------------------------------------------------------------------------

def Store.entry (store : Store) : Entry :=
  ⟨store.data, store.time, store.until⟩

/-- Nothing but a store whose time is up may be missing. -/
inductive Keeps (now : Int) : Option Store → Option Entry → Prop
  | nothing : Keeps now none none
  | stored (store : Store) : Keeps now (some store) (some store.entry)
  | dropped {store : Store} : store.until < now → Keeps now (some store) none

def Agrees (cache : Cache) (log : Log) (now : Int) : Prop :=
  ∀ key, Keeps now (log.latest? key) cache.entries[key]?

theorem Keeps.later {now later : Int} {store : Option Store} {entry : Option Entry}
    (h : Keeps now store entry) (hl : now ≤ later) : Keeps later store entry := by
  cases h with
  | nothing => exact .nothing
  | stored store => exact .stored store
  | dropped hd => exact .dropped (by omega)

section
variable {cache : Cache} {log : Log} {now : Int} {key : String}

theorem Agrees.later (h : cache.Agrees log now) {later : Int} (hl : now ≤ later) :
    cache.Agrees log later :=
  fun key => (h key).later hl

theorem Store.expiry_eq (store : Store) :
    expiry store.time store.seconds =
      if store.Fits then .ok store.until else .error .clockOverflow := by
  unfold expiry
  by_cases hf : store.Fits
  · rw [if_neg (Int.not_lt.mpr hf), if_pos hf]
    rfl
  · rw [if_pos (Int.not_le.mp hf), if_neg hf]

theorem agrees_nil (settings : Settings) (now : Int) : (ofSettings settings).Agrees [] now := by
  intro key
  have he : (ofSettings settings).entries[key]? = none := Std.HashMap.getElem?_empty
  rw [he]
  exact .nothing

/-- A look answers as the log does, and at most drops what does not answer any more. -/
theorem Agrees.look (h : cache.Agrees log now) (key : String) :
    (cache.look now key).1.Agrees log now ∧ log.Finds now key (cache.look now key).2 := by
  have hk := h key
  unfold Log.Finds Log.live?
  generalize hs : log.latest? key = store at hk ⊢
  generalize he : cache.entries[key]? = entry at hk
  cases hk with
  | nothing =>
    rw [look_of_none he]
    exact ⟨h, .inl rfl⟩
  | dropped hd =>
    rw [look_of_none he, Option.filter_some, if_neg (by simpa using hd)]
    exact ⟨h, .inl rfl⟩
  | stored store =>
    rw [Option.filter_some]
    rcases Int.lt_or_le store.until now with hx | hl
    · rw [look_of_expired he hx, if_neg (by simpa using hx)]
      refine ⟨fun other => ?_, .inr rfl⟩
      rw [erase, Std.HashMap.getElem?_erase]
      by_cases ho : key = other
      · rw [if_pos (by simpa using ho), ← ho, hs]
        exact .dropped hx
      · rw [if_neg (by simpa using ho)]
        exact h other
    · rw [look_of_live he hl, if_pos (by simpa using hl)]
      exact ⟨h, rfl⟩

/-- A store makes room for its key, and then it is completed if it fits. -/
theorem set_eq (cache : Cache) (time : Int) (key : String) (data : Json)
    (seconds : Option Nat) :
    cache.set time key data seconds =
      if (cache.settings.store time data seconds).Fits then
        ({ cache.makeRoom time key with
            entries := (cache.makeRoom time key).entries.insert key
              (cache.settings.store time data seconds).entry },
          .ok ())
      else (cache.makeRoom time key, .error .clockOverflow) := by
  have he := (cache.settings.store time data seconds).expiry_eq
  unfold Cache.set
  rw [show expiry time (seconds.getD cache.settings.seconds) = _ from he]
  by_cases hf : (cache.settings.store time data seconds).Fits
  · rw [if_pos hf, if_pos hf]
    rfl
  · rw [if_neg hf, if_neg hf]

/-- With room for its key a store changes nothing else. -/
theorem HasRoom.set (h : cache.HasRoom key) (time : Int) (data : Json) (seconds : Option Nat) :
    cache.set time key data seconds =
      if (cache.settings.store time data seconds).Fits then
        ({ cache with
            entries := cache.entries.insert key (cache.settings.store time data seconds).entry },
          .ok ())
      else (cache, .error .clockOverflow) := by
  rw [set_eq, h.makeRoom]

theorem Agrees.insert (h : cache.Agrees log now) (key : String) (store : Store) :
    Agrees { cache with entries := cache.entries.insert key store.entry }
      (.stored key store :: log) now := by
  intro other
  rw [Log.latest?, Std.HashMap.getElem?_insert]
  by_cases ho : key = other
  · rw [if_pos ho, if_pos (by simpa using ho)]
    exact .stored store
  · rw [if_neg ho, if_neg (by simpa using ho)]
    exact h other

theorem Agrees.set (h : cache.Agrees log now) (hr : cache.HasRoom key) {time : Int}
    (hn : now ≤ time) (data : Json) (seconds : Option Nat) :
    (cache.set time key data seconds).1.Agrees
        (log.record key (cache.settings.store time data seconds)) time ∧
      (cache.set time key data seconds).2 =
        if (cache.settings.store time data seconds).Fits then .ok ()
        else .error .clockOverflow := by
  rw [hr.set, Log.record]
  split
  · exact ⟨(h.later hn).insert key _, rfl⟩
  · exact ⟨h.later hn, rfl⟩

theorem Agrees.delete (h : cache.Agrees log now) (key : String) :
    (cache.delete key).1.Agrees (.deleted key :: log) now := by
  intro other
  rw [Log.latest?, Cache.delete, erase, Std.HashMap.getElem?_erase]
  by_cases ho : key = other
  · rw [if_pos ho, if_pos (by simpa using ho)]
    exact .nothing
  · rw [if_neg ho, if_neg (by simpa using ho)]
    exact h other

theorem Agrees.invalidate (h : cache.Agrees log now) (pattern : String) :
    (cache.invalidate pattern).1.Agrees (.invalidated pattern :: log) now := by
  intro key
  rw [Log.latest?, Cache.invalidate, Std.HashMap.getElem?_filter']
  by_cases hp : globMatches pattern key = true
  · rw [if_pos hp, Option.filter_eq_none_iff.mpr fun _ _ => by simp [hp]]
    exact .nothing
  · have hkept : cache.entries[key]?.filter (fun _ => !globMatches pattern key) =
        cache.entries[key]? := by
      cases cache.entries[key]? <;> simp [hp]
    rw [if_neg hp, hkept]
    exact h key

theorem agrees_clear (cache : Cache) (log : Log) (now : Int) :
    cache.clear.Agrees (.cleared :: log) now := by
  intro key
  rw [Cache.clear, Std.HashMap.getElem?_empty]
  exact .nothing

end

-- ---------------------------------------------------------------------------
-- Steps
-- ---------------------------------------------------------------------------

section
variable {session : Session} {log : Log}

theorem Log.Finds.data? {now : Int} {key : String} {found : Lookup}
    (h : log.Finds now key found) : found.data? = (log.live? now key).map Store.data := by
  unfold Finds at h
  split at h
  · rename_i store hl
    rw [h, hl]
    rfl
  · rename_i hl
    rw [hl]
    rcases h with rfl | rfl <;> rfl

/-- One step extends the log as the log itself tells, and answers as the log allows. -/
theorem Agrees.stepAt (h : session.cache.Agrees log session.now) {timed : Timed}
    (hp : session.Proceeds timed) :
    (session.stepAt timed).1.cache.Agrees (log.extend session.cache.settings timed)
        (session.stepAt timed).1.now ∧
      log.Allows session.cache.settings timed (session.stepAt timed).2 := by
  obtain ⟨time, step⟩ := timed
  have hnow : session.cache.Agrees log time := h.later hp.time
  cases step with
  | get key =>
    obtain ⟨hkept, hfound⟩ := hnow.look key
    exact ⟨hkept, congrArg Answer.data hfound.data?⟩
  | look key =>
    obtain ⟨hkept, hfound⟩ := hnow.look key
    exact ⟨hkept, _, rfl, hfound⟩
  | set key data seconds =>
    have hroom : session.cache.HasRoom key := hp.room
    obtain ⟨hkept, hdone⟩ := hnow.set hroom (Int.le_refl time) data seconds
    rw [Session.stepAt, Session.step_set]
    refine ⟨hkept, ?_⟩
    by_cases hf : (session.cache.settings.store time data seconds).Fits
    · rw [if_pos hf] at hdone
      simp [Log.Allows, hdone, hf]
    · rw [if_neg hf] at hdone
      simp [Log.Allows, hdone, hf]
  | delete key => exact ⟨hnow.delete key, trivial⟩
  | invalidate pattern => exact ⟨hnow.invalidate pattern, trivial⟩
  | clear => exact ⟨agrees_clear _ _ _, trivial⟩
  | getOrSet key seconds duration result =>
    obtain ⟨hkept, hfound⟩ := hnow.look key
    have hdata := hfound.data?
    have hload := hp.load
    rw [Session.stepAt] at hload ⊢
    cases hl : log.live? time key with
    | some store =>
      rw [hl] at hdata
      rw [Session.step_getOrSet_of_some seconds hdata]
      simp only [Log.extend, Log.Allows, hl]
      exact ⟨hkept, trivial⟩
    | none =>
      rw [hl] at hdata
      cases result with
      | error error =>
        rw [Session.step_getOrSet_error seconds hdata] at hload ⊢
        simp only [Log.extend, Log.Allows, hl]
        exact ⟨hkept.later hload, trivial⟩
      | ok data =>
        have hroom : (session.cache.look time key).1.HasRoom key := hp.room
        rw [Session.step_getOrSet_ok seconds hdata] at hload ⊢
        obtain ⟨hset, hdone⟩ := hkept.set hroom hload data seconds
        rw [look_settings] at hset hdone
        simp only [Log.extend, Log.Allows, hl]
        refine ⟨hset, ?_⟩
        by_cases hf : (session.cache.settings.store (time + duration) data seconds).Fits
        · rw [if_pos hf] at hdone ⊢
          rw [hdone]
        · rw [if_neg hf] at hdone ⊢
          rw [hdone]

/-- What the cache keeps agrees with the log of the whole run. -/
theorem Agrees.run (h : session.cache.Agrees log session.now) {steps : List Timed}
    (hs : session.Steady steps) :
    (session.run steps).cache.Agrees (steps.foldl (Log.extend session.cache.settings) log)
      (session.run steps).now := by
  induction steps generalizing session log with
  | nil => exact h
  | cons timed steps ih =>
    obtain ⟨hp, hs⟩ := hs
    have hn := ih (h.stepAt hp).1 hs
    rwa [Session.stepAt_settings] at hn

end

theorem Session.Steady.agrees {settings : Settings} {start : Int} {steps : List Timed}
    (h : (opened settings start).Steady steps) :
    ((opened settings start).run steps).cache.Agrees (Log.ofRun settings steps)
      ((opened settings start).run steps).now :=
  (agrees_nil settings start).run h

/-- The steps that store nothing and take nothing away. -/
def Step.IsQuiet : Step → Prop
  | .get _ | .look _ => True
  | .getOrSet _ _ _ (.error _) => True
  | _ => False

theorem Log.extend_quiet {timed : Timed} (hq : timed.step.IsQuiet) (settings : Settings)
    (log : Log) : log.extend settings timed = log := by
  obtain ⟨time, step⟩ := timed
  cases step with
  | get key => rfl
  | look key => rfl
  | getOrSet key seconds duration result =>
    cases result with
    | error error => cases hl : log.live? time key <;> simp [extend, hl]
    | ok data => exact hq.elim
  | _ => exact hq.elim

theorem Log.ofRun_quiet (settings : Settings) (before : List Timed) {quiet : Timed}
    (hq : quiet.step.IsQuiet) (more : List Timed) :
    ofRun settings (before ++ quiet :: more) = ofRun settings (before ++ more) := by
  simp only [ofRun, List.foldl_append, List.foldl_cons, extend_quiet hq]

/-- However a steady run went, its log allows the next answer. Looks and failed loads of the
run may be left out of it without a difference. -/
theorem Session.run_follows_log {settings : Settings} {start : Int} {steps : List Timed}
    (h : (opened settings start).Steady steps) :
    (∀ timed, ((opened settings start).run steps).Proceeds timed →
      (Log.ofRun settings steps).Allows settings timed
        (((opened settings start).run steps).stepAt timed).2) ∧
      ∀ before quiet more, steps = before ++ quiet :: more → quiet.step.IsQuiet →
        (opened settings start).Steady (before ++ more) →
        ∀ timed, ((opened settings start).run (before ++ more)).Proceeds timed →
          (Log.ofRun settings steps).Allows settings timed
            (((opened settings start).run (before ++ more)).stepAt timed).2 := by
  have hnext {steps : List Timed} (hs : (opened settings start).Steady steps) (timed : Timed)
      (hp : ((opened settings start).run steps).Proceeds timed) :
      (Log.ofRun settings steps).Allows settings timed
        (((opened settings start).run steps).stepAt timed).2 := by
    have ha := (hs.agrees.stepAt hp).2
    rwa [run_settings] at ha
  refine ⟨hnext h, ?_⟩
  rintro before quiet more rfl hq hs timed hp
  rw [Log.ofRun_quiet settings before hq]
  exact hnext hs timed hp

/-- A page is stored for a second, looked for too late, and loaded. -/
def renewal : List Timed :=
  [⟨0, .set "page" (.int 1) (some 1)⟩, ⟨2000000000, .get "page"⟩,
    ⟨2000000000, .getOrSet "page" none 5 (.ok (.int 2))⟩]

theorem renewal_follows_log :
    (Session.opened .api 0).Steady renewal ∧
      (((Session.opened .api 0).run renewal).stepAt ⟨300000000000, .get "page"⟩).2 =
        .data (some (.int 2)) := by
  have hroom : (ofSettings .api).HasRoom "page" := .inl (by decide)
  have hset : (Session.opened .api 0).cache.set (Session.opened .api 0).now "page" (.int 1)
      (some 1) =
        (⟨.api, (∅ : Std.HashMap String Entry).insert "page" ⟨.int 1, 0, 1000000000⟩⟩,
          .ok ()) := by
    have h := hroom.set 0 (.int 1) (some 1)
    rwa [if_pos (by decide)] at h
  have hfirst : (Session.opened .api 0).stepAt ⟨0, .set "page" (.int 1) (some 1)⟩ =
      (⟨⟨.api, (∅ : Std.HashMap String Entry).insert "page" ⟨.int 1, 0, 1000000000⟩⟩, 0⟩,
        .done) := by
    have hstep := (Session.opened .api 0).step_set "page" (some 1) (.int 1)
    rw [hset] at hstep
    exact hstep
  have hsteady : (Session.opened .api 0).Steady renewal := by
    refine ⟨⟨by decide, ?_, hroom⟩, ⟨?_, Int.le_refl _, trivial⟩, ⟨Int.le_refl _, ?_, .inl ?_⟩,
      trivial⟩
    · exact Int.le_of_eq (congrArg (fun result => result.1.now) hfirst).symm
    · rw [hfirst]
      decide
    · exact Session.now_le_getOrSet none (by decide) _ _
    · rw [hfirst]
      have hone : size ⟨.api, (∅ : Std.HashMap String Entry).insert "page"
          ⟨.int 1, 0, 1000000000⟩⟩ ≤ 1 := Std.HashMap.size_insert_le
      have hlooked := Nat.le_trans (size_look_le _ 2000000000 "page") hone
      exact Nat.lt_of_le_of_lt (Nat.le_trans (size_look_le _ 2000000000 "page") hlooked)
        (show 1 < capacity by decide)
  have hnow : ((Session.opened .api 0).run renewal).now ≤ 300000000000 := by
    show Outcome.endOf 2000000000 5 _ ≤ 300000000000
    unfold Outcome.endOf
    split <;> decide
  exact ⟨hsteady, (Session.run_follows_log hsteady).1 ⟨300000000000, .get "page"⟩
    ⟨hnow, Int.le_refl _, trivial⟩⟩

end Folio.Cache
