import Folio.Proofs.Cache.Room
import Folio.Proofs.Config.Acceptance

/-!
# The configured life of entries

A configuration sets the seconds that entries live, and takes any number that 64 bits hold.
The clock shows only half as many seconds. A value that was loaded is stored and given to the
client just when the end of its life is a time that the clock can show.
-/

namespace Folio

-- ---------------------------------------------------------------------------
-- What is accepted
-- ---------------------------------------------------------------------------

namespace Config

theorem cacheSeconds_le {lookup : String → Option String} {config : Config}
    (h : ofLookup lookup = .ok config) : config.cacheSeconds ≤ Numeral.largest 64 := by
  have hrange := (holds_of_ofLookup h).2.2.1.contains
  exact Int.ofNat_le.mp hrange.2

end Config

-- ---------------------------------------------------------------------------
-- Values that are loaded
-- ---------------------------------------------------------------------------

namespace Cache

/-- The client gets the value that was found, or else the one that was loaded, which is then
the entry of the key. -/
def Served {ε : Type} (found : Option Json) (loaded : Store) (key : String) :
    Cache × Outcome ε → Prop
  | (_, .cached data) => found = some data
  | (after, .loaded data) =>
    found = none ∧ data = loaded.data ∧ after.entries[key]? = some loaded.entry
  | (_, .failed _) => False
  | (_, .fault _) => False

section
variable {ε : Type} {cache : Cache} {now : Int} {key : String}

/-- A key that was looked for in vain has no entry any more. -/
theorem getElem?_look_of_miss (h : (cache.look now key).2.data? = none) :
    (cache.look now key).1.entries[key]? = none := by
  cases he : cache.entries[key]? with
  | none => rwa [look_of_none he]
  | some entry =>
    rcases Int.lt_or_le entry.expiresAt now with hx | hl
    · rw [look_of_expired he hx]
      exact Std.HashMap.getElem?_erase_self
    · rw [look_of_live he hl] at h
      cases h

theorem look_ofSettings (settings : Settings) (now : Int) (key : String) :
    ((ofSettings settings).look now key).2.data? = none := by
  rw [look_of_none Std.HashMap.getElem?_empty]
  rfl

section
variable (h : (cache.look now key).2.data? = none) (seconds : Option Nat)
  {load : Int → Load ε} {data : Json} (hl : (load now).result = .ok data)
include h hl

theorem served_of_fits
    (hf : (cache.settings.store (load now).finishedAt data seconds).Fits) :
    Served none (cache.settings.store (load now).finishedAt data seconds) key
      (cache.getOrSet now key seconds load) := by
  have hset := (cache.look now key).1.set_self (load now).finishedAt key data seconds
  rw [look_settings, if_pos hf] at hset
  rw [getOrSet_of_miss h seconds hl]
  simp only [hset.1]
  exact ⟨rfl, rfl, hset.2⟩

/-- What does not fit leaves nothing behind. -/
theorem getOrSet_of_not_fits
    (hf : ¬ (cache.settings.store (load now).finishedAt data seconds).Fits) :
    (cache.getOrSet now key seconds load).2 = .fault .clockOverflow ∧
      (cache.getOrSet now key seconds load).1.entries[key]? = none := by
  have hset := (cache.look now key).1.set_self (load now).finishedAt key data seconds
  rw [look_settings, if_neg hf] at hset
  rw [getOrSet_of_miss h seconds hl]
  simp only [hset.1]
  exact ⟨trivial, hset.2.trans (getElem?_look_of_miss h)⟩

end

theorem not_served_of_fault {found : Option Json} {loaded : Store} {fault : Fault}
    {result : Cache × Outcome ε} (h : result.2 = .fault fault) :
    ¬ Served found loaded key result := by
  obtain ⟨after, outcome⟩ := result
  cases h
  exact id

theorem served_iff_fits (cache : Cache) (now : Int) (key : String) (seconds : Option Nat)
    (load : Int → Load ε) {data : Json} (hl : (load now).result = .ok data) :
    let found := (cache.look now key).2.data?
    let loaded := cache.settings.store (load now).finishedAt data seconds
    let result := cache.getOrSet now key seconds load
    (Served found loaded key result ↔ (found = none → loaded.Fits)) ∧
      (¬ Served found loaded key result →
        result.2 = .fault .clockOverflow ∧ result.1.entries[key]? = none) := by
  intro found loaded result
  cases hf : found with
  | some data =>
    have hs : Served (some data) loaded key result := by
      rw [show result = _ from getOrSet_of_hit hf seconds load]
      rfl
    exact ⟨iff_of_true hs nofun, absurd hs⟩
  | none =>
    by_cases hfits : loaded.Fits
    · have hs : Served none loaded key result := served_of_fits hf seconds hl hfits
      exact ⟨iff_of_true hs fun _ => hfits, absurd hs⟩
    · have hfault := getOrSet_of_not_fits hf seconds hl hfits
      exact ⟨iff_of_false (not_served_of_fault hfault.1) fun h => hfits (h rfl), fun _ => hfault⟩

end

end Cache

-- ---------------------------------------------------------------------------
-- Configured caches
-- ---------------------------------------------------------------------------

namespace Config

open Cache (Session Timed Load Served)

/-- An accepted life has 64 bits. With it, and in whatever state a run has left the cache, a
request that names no life of its own is served just when the key is there or the life ends
while the clock can show it. If not, the request fails and nothing is stored. -/
theorem served_iff_life_fits {lookup : String → Option String} {config : Config}
    (hc : ofLookup lookup = .ok config) (start : Int) (steps : List Timed) (now : Int)
    (key : String) {ε : Type} (load : Int → Load ε) {data : Json}
    (hl : (load now).result = .ok data) :
    let before := ((Session.opened config.cacheSettings start).run steps).cache
    let found := (before.look now key).2.data?
    let loaded := config.cacheSettings.store (load now).finishedAt data none
    let result := before.getOrSet now key none load
    config.cacheSeconds ≤ Numeral.largest 64 ∧
      (Served found loaded key result ↔
        (found = none →
          (load now).finishedAt / Cache.second + config.cacheSeconds ≤ Cache.lastSecond)) ∧
      (¬ Served found loaded key result →
        result.2 = .fault .clockOverflow ∧ result.1.entries[key]? = none) := by
  intro before found loaded result
  have hsettings : before.settings = config.cacheSettings := Session.run_settings _ _
  have hserved := before.served_iff_fits now key none load hl
  rw [hsettings] at hserved
  exact ⟨cacheSeconds_le hc, hserved⟩

/-- Variables of which only the one for the life of entries is set. -/
def onlyLife (seconds : String) (name : String) : Option String :=
  if name = "CACHE_TTL_SECS" then some seconds else none

/-- At the zero of the clock the largest number of 63 bits still fits. -/
theorem longestLife_served :
    let config : Config := ⟨"sqlite::memory:", 5, 1000, 9223372036854775807, "api"⟩
    let load : Int → Load Json := fun now => ⟨now, .ok (.int 1)⟩
    ofLookup (onlyLife "9223372036854775807") = .ok config ∧
      Served none (config.cacheSettings.store 0 (.int 1) none) "page"
        ((Cache.ofSettings config.cacheSettings).getOrSet 0 "page" none load) := by
  intro config load
  have hc : ofLookup (onlyLife "9223372036854775807") = .ok config := by rfl
  have hserved := (served_iff_life_fits hc 0 [] 0 "page" load rfl).2.1.mpr
    fun _ => by decide
  rw [← Cache.look_ofSettings config.cacheSettings 0 "page"]
  exact ⟨hc, hserved⟩

/-- The largest number of 64 bits is accepted, and with it nothing is served. -/
theorem unendingLife_is_not_served :
    ∃ config, ofLookup (onlyLife "18446744073709551615") = .ok config ∧
      let load : Int → Load Json := fun now => ⟨now, .ok (.int 1)⟩
      let result := (Cache.ofSettings config.cacheSettings).getOrSet 0 "page" none load
      ¬ Served none (config.cacheSettings.store 0 (.int 1) none) "page" result ∧
        result.2 = .fault .clockOverflow ∧ result.1.entries["page"]? = none := by
  refine ⟨⟨"sqlite::memory:", 5, 1000, 18446744073709551615, "api"⟩, rfl, ?_⟩
  intro load result
  have hmiss := Cache.look_ofSettings ⟨18446744073709551615, "api"⟩ 0 "page"
  have hload : (load 0).result = .ok (.int 1) := rfl
  have hfault := Cache.getOrSet_of_not_fits hmiss none hload (by decide)
  exact ⟨Cache.not_served_of_fault hfault.1, hfault⟩

end Config

end Folio
