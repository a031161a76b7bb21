import Folio.Proofs.Cache.Lifetime

/-!
# When a value is loaded

A request for a key runs its loader just when the key has no live entry. What a loader gives
is kept from the end of the load on, and while it lives the next request finds it. A loader
that fails leaves nothing behind, and takes away no more than the look in front of it did.
-/

namespace Folio.Cache

/-- The key has an entry, and its time is not up. -/
def Live (cache : Cache) (now : Int) (key : String) : Prop :=
  ∃ entry, cache.entries[key]? = some entry ∧ now ≤ entry.expiresAt

/-- The loader was run. -/
def Outcome.Ran {ε : Type} : Outcome ε → Prop
  | .cached _ => False
  | .loaded _ | .failed _ | .fault _ => True

/-- The next request for the key is answered from the store until its time is up, its last
instant included, and runs its loader behind that. -/
def ServesUntil (cache : Cache) (key : String) (store : Store) : Prop :=
  ∀ (ε : Type) (later : Int) (seconds : Option Nat) (load : Int → Load ε),
    (later ≤ store.until →
      cache.getOrSet later key seconds load = (cache, .cached store.data)) ∧
    (store.until < later → (cache.getOrSet later key seconds load).2.Ran)

section
variable {ε : Type} {cache : Cache} {now : Int} {key : String}

theorem getOrSet_of_live {entry : Entry} (h : cache.entries[key]? = some entry)
    (hl : now ≤ entry.expiresAt) (seconds : Option Nat) (load : Int → Load ε) :
    cache.getOrSet now key seconds load = (cache, .cached entry.data) := by
  have hfound : (cache.look now key).2.data? = some entry.data := by
    rw [look_of_live h hl]
    rfl
  rw [getOrSet_of_hit hfound, look_of_live h hl]

/-- A look that finds nothing alive drops at most the expired entry of its key. -/
theorem look_of_not_live (h : ¬ cache.Live now key) :
    (cache.look now key).2.data? = none ∧
      ((cache.look now key).1 = cache ∨
        cache.Expired now key ∧ (cache.look now key).1 = cache.erase key) := by
  cases he : cache.entries[key]? with
  | none =>
    rw [look_of_none he]
    exact ⟨rfl, .inl rfl⟩
  | some entry =>
    have hx : entry.expiresAt < now := Int.not_le.mp fun hl => h ⟨entry, he, hl⟩
    rw [look_of_expired he hx]
    exact ⟨rfl, .inr ⟨⟨entry, he, decide_eq_true hx⟩, rfl⟩⟩

/-- Whatever becomes of the load, a look that finds nothing alive lets the loader run. -/
theorem ran_of_miss (h : (cache.look now key).2.data? = none) (seconds : Option Nat)
    (load : Int → Load ε) : (cache.getOrSet now key seconds load).2.Ran := by
  cases hl : (load now).result with
  | error error =>
    rw [getOrSet_of_error h seconds hl]
    trivial
  | ok data =>
    rw [getOrSet_of_miss h seconds hl]
    dsimp only
    split <;> trivial

theorem ran_getOrSet_iff (seconds : Option Nat) (load : Int → Load ε) :
    (cache.getOrSet now key seconds load).2.Ran ↔ ¬ cache.Live now key := by
  constructor
  · rintro hr ⟨entry, he, hl⟩
    rw [getOrSet_of_live he hl] at hr
    exact hr
  · exact fun h => ran_of_miss (look_of_not_live h).1 seconds load

theorem Served.loaded_of_none {store : Store} {result : Cache × Outcome ε}
    (h : Served none store key result) :
    result.2 = .loaded store.data ∧ result.1.entries[key]? = some store.entry := by
  obtain ⟨after, outcome⟩ := result
  cases outcome with
  | cached data => cases h
  | loaded data =>
    obtain ⟨-, rfl, he⟩ := h
    exact ⟨rfl, he⟩
  | failed error => exact h.elim
  | fault fault => exact h.elim

theorem servesUntil_of_entry {store : Store} (h : cache.entries[key]? = some store.entry) :
    cache.ServesUntil key store := by
  intro ε later seconds load
  refine ⟨fun hl => getOrSet_of_live h hl seconds load, fun hx => ?_⟩
  rw [ran_getOrSet_iff]
  rintro ⟨entry, he, hl⟩
  cases Option.some.inj (h.symm.trans he)
  exact absurd hx (Int.not_lt.mpr hl)

end

/-- The loader of a request runs just when its key has no live entry. A live entry is the
answer, and the cache stays as it is. The error of a loader is passed on, and at most the
key's expired entry is gone. A value that was loaded is the answer and is kept from the end of
its load on, if the clock can show the end of its life. -/
theorem getOrSet_loads_when_needed {ε : Type} (cache : Cache) (now : Int) (key : String)
    (seconds : Option Nat) (load : Int → Load ε) :
    let after := (cache.getOrSet now key seconds load).1
    let outcome := (cache.getOrSet now key seconds load).2
    (outcome.Ran ↔ ¬ cache.Live now key) ∧
      (∀ entry, cache.entries[key]? = some entry → now ≤ entry.expiresAt →
        outcome = .cached entry.data ∧ after = cache) ∧
      (outcome.Ran → ∀ error, (load now).result = .error error →
        outcome = .failed error ∧
          (after = cache ∨ cache.Expired now key ∧ after = cache.erase key)) ∧
      (outcome.Ran → ∀ data, (load now).result = .ok data →
        let store := cache.settings.store (load now).finishedAt data seconds
        store.Fits → outcome = .loaded data ∧ after.entries[key]? = some store.entry ∧
          after.ServesUntil key store) := by
  intro after outcome
  have hran : outcome.Ran ↔ ¬ cache.Live now key := ran_getOrSet_iff seconds load
  refine ⟨hran, fun entry he hl => ?_, fun hr error hl => ?_, fun hr data hl => ?_⟩
  · have hhit := getOrSet_of_live he hl seconds load
    exact ⟨congrArg Prod.snd hhit, congrArg Prod.fst hhit⟩
  · obtain ⟨hmiss, hkept⟩ := look_of_not_live (hran.mp hr)
    have hfail := getOrSet_of_error hmiss seconds hl
    rw [← congrArg Prod.fst hfail] at hkept
    exact ⟨congrArg Prod.snd hfail, hkept⟩
  · intro store hf
    have hmiss := (look_of_not_live (hran.mp hr)).1
    obtain ⟨hloaded, hentry⟩ := (served_of_fits hmiss seconds hl hf).loaded_of_none
    exact ⟨hloaded, hentry, servesUntil_of_entry hentry⟩

end Folio.Cache
