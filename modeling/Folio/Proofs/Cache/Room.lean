import Folio.Proofs.Cache.Log

/-!
# Room for a new key

A new key in a full cache needs room: the entries whose time is up go, and if there are none,
one that no other is older than. That always helps, so the cache stays within its capacity
however the clock moves, and a store costs the other keys no more than it has to.

A load may use the cache itself. To the entries that is a look, the steps of the load and a
store, one after the other, so a run of steps covers it.
-/

namespace Folio.Cache

/-- The key has an entry, and the time of the entry is up. -/
def Expired (cache : Cache) (now : Int) (key : String) : Prop :=
  ∃ entry, cache.entries[key]? = some entry ∧ entry.isExpired now = true

/-- The key has an entry, and no entry is older. -/
def IsOldest (cache : Cache) (key : String) : Prop :=
  ∃ entry, cache.entries[key]? = some entry ∧
    ∀ (other : String) (e : Entry), cache.entries[other]? = some e →
      entry.insertedAt ≤ e.insertedAt

-- ---------------------------------------------------------------------------
-- The oldest entry
-- ---------------------------------------------------------------------------

theorem older_eq (first second : String × Entry) :
    older first second = first ∨ older first second = second := by
  unfold older
  split
  · exact .inr rfl
  · exact .inl rfl

theorem insertedAt_older_le (first second : String × Entry) :
    (older first second).2.insertedAt ≤ first.2.insertedAt ∧
      (older first second).2.insertedAt ≤ second.2.insertedAt := by
  unfold older
  split <;> omega

theorem foldl_older_mem (first : String × Entry) (rest : List (String × Entry)) :
    rest.foldl older first ∈ first :: rest := by
  induction rest generalizing first with
  | nil => exact List.mem_cons_self
  | cons second rest ih =>
    rcases List.mem_cons.mp (ih (older first second)) with he | hm
    · rw [List.foldl_cons, he]
      rcases older_eq first second with h | h <;> simp [h]
    · exact List.mem_cons_of_mem _ (List.mem_cons_of_mem _ hm)

theorem insertedAt_foldl_older_le (first : String × Entry) (rest : List (String × Entry)) :
    ∀ e ∈ first :: rest, (rest.foldl older first).2.insertedAt ≤ e.2.insertedAt := by
  induction rest generalizing first with
  | nil =>
    intro e he
    rw [List.mem_singleton.mp he]
    exact Int.le_refl _
  | cons second rest ih =>
    have hfold := ih (older first second) _ List.mem_cons_self
    obtain ⟨hfirst, hsecond⟩ := insertedAt_older_le first second
    intro e he
    rcases List.mem_cons.mp he with rfl | he
    · exact Int.le_trans hfold hfirst
    · rcases List.mem_cons.mp he with rfl | he
      · exact Int.le_trans hfold hsecond
      · exact ih _ e (List.mem_cons_of_mem _ he)

section
variable {cache : Cache} {now : Int} {key : String}

theorem isOldest_of_oldest? {entry : Entry} (h : cache.oldest? = some (key, entry)) :
    cache.IsOldest key := by
  unfold oldest? at h
  split at h
  · cases h
  · rename_i first rest hl
    have hfold : rest.foldl older first = (key, entry) := Option.some.inj h
    have hmem := foldl_older_mem first rest
    have hle := insertedAt_foldl_older_le first rest
    rw [hfold, ← hl] at hmem
    rw [hfold, ← hl] at hle
    refine ⟨entry, Std.HashMap.mem_toList_iff_getElem?_eq_some.mp hmem, fun other e he => ?_⟩
    exact hle (other, e) (Std.HashMap.mem_toList_iff_getElem?_eq_some.mpr he)

theorem size_of_oldest?_eq_none (h : cache.oldest? = none) : cache.size = 0 := by
  unfold oldest? at h
  split at h
  · rename_i hl
    rw [size, ← Std.HashMap.length_toList, hl, List.length_nil]
  · cases h

theorem IsOldest.mem (h : cache.IsOldest key) : key ∈ cache.entries := by
  obtain ⟨entry, he, -⟩ := h
  exact (Std.HashMap.getElem?_eq_some_iff.mp he).1

-- ---------------------------------------------------------------------------
-- Without the expired entries
-- ---------------------------------------------------------------------------

theorem getElem?_dropExpired (cache : Cache) (now : Int) (key : String) :
    (cache.dropExpired now).entries[key]? =
      cache.entries[key]?.filter fun entry => !entry.isExpired now :=
  Std.HashMap.getElem?_filter'

theorem Expired.getElem?_dropExpired (h : cache.Expired now key) :
    (cache.dropExpired now).entries[key]? = none := by
  obtain ⟨entry, he, hx⟩ := h
  rw [Cache.getElem?_dropExpired, he, Option.filter_some, hx]
  rfl

theorem getElem?_dropExpired_of_not (h : ¬ cache.Expired now key) :
    (cache.dropExpired now).entries[key]? = cache.entries[key]? := by
  rw [getElem?_dropExpired]
  cases he : cache.entries[key]? with
  | none => rfl
  | some entry =>
    have hx : entry.isExpired now = false :=
      Bool.eq_false_iff.mpr fun hx => h ⟨entry, he, hx⟩
    rw [Option.filter_some, hx]
    rfl

theorem Expired.mem (h : cache.Expired now key) : key ∈ cache.entries := by
  obtain ⟨entry, he, -⟩ := h
  exact (Std.HashMap.getElem?_eq_some_iff.mp he).1

theorem size_dropExpired_le (cache : Cache) (now : Int) :
    (cache.dropExpired now).size ≤ cache.size :=
  Std.HashMap.size_filter_le_size

theorem size_dropExpired_eq_iff (cache : Cache) (now : Int) :
    (cache.dropExpired now).size = cache.size ↔ ∀ key, ¬ cache.Expired now key := by
  refine Std.HashMap.size_filter_eq_size_iff.trans ⟨fun h key => ?_, fun h key hm => ?_⟩
  · rintro ⟨entry, he, hx⟩
    obtain ⟨hm, hv⟩ := Std.HashMap.getElem?_eq_some_iff.mp he
    have hkept := h key hm
    rw [hv, hx] at hkept
    cases hkept
  · have hlive := h key
    rw [Expired, Std.HashMap.getElem?_eq_some_getElem hm] at hlive
    simpa using hlive

theorem Expired.size_dropExpired_lt (h : cache.Expired now key) :
    (cache.dropExpired now).size < cache.size :=
  Nat.lt_of_le_of_ne (size_dropExpired_le cache now) fun hs =>
    (size_dropExpired_eq_iff cache now).mp hs key h

-- ---------------------------------------------------------------------------
-- Evictions
-- ---------------------------------------------------------------------------

/-- If it is not enough to drop what is expired, the oldest of the others goes. -/
theorem evict_of_full (h : capacity ≤ (cache.dropExpired now).size) :
    ∃ lost, (cache.dropExpired now).IsOldest lost ∧
      cache.evict now = (cache.dropExpired now).erase lost := by
  unfold evict
  rw [if_neg (Nat.not_lt.mpr h)]
  cases ho : (cache.dropExpired now).oldest? with
  | some oldest => exact ⟨oldest.1, isOldest_of_oldest? ho, rfl⟩
  | none =>
    rw [size_of_oldest?_eq_none ho] at h
    exact absurd h (by decide)

theorem size_evict_lt (h : cache.size ≤ capacity) (now : Int) :
    (cache.evict now).size < capacity := by
  have hle := size_dropExpired_le cache now
  rcases Nat.lt_or_ge (cache.dropExpired now).size capacity with hs | hf
  · rw [evict, if_pos hs]
    exact hs
  · obtain ⟨lost, ho, he⟩ := evict_of_full hf
    have hpos : 0 < capacity := by decide
    have herase : ((cache.dropExpired now).erase lost).size = (cache.dropExpired now).size - 1 :=
      Std.HashMap.size_erase.trans (if_pos ho.mem)
    rw [he, herase]
    omega

theorem makeRoom_of_not_hasRoom (h : ¬ cache.HasRoom key) (now : Int) :
    cache.makeRoom now key = cache.evict now := by
  rw [HasRoom, not_or, Nat.not_lt] at h
  unfold makeRoom
  rw [if_pos]
  simpa using h

theorem hasRoom_makeRoom (h : cache.size ≤ capacity) (now : Int) (key : String) :
    (cache.makeRoom now key).HasRoom key := by
  by_cases hr : cache.HasRoom key
  · rwa [hr.makeRoom]
  · rw [makeRoom_of_not_hasRoom hr]
    exact .inl (size_evict_lt h now)

theorem size_makeRoom_le (h : cache.size ≤ capacity) (now : Int) (key : String) :
    (cache.makeRoom now key).size ≤ capacity := by
  by_cases hr : cache.HasRoom key
  · rwa [hr.makeRoom]
  · rw [makeRoom_of_not_hasRoom hr]
    exact Nat.le_of_lt (size_evict_lt h now)

end

-- ---------------------------------------------------------------------------
-- The capacity
-- ---------------------------------------------------------------------------

section
variable {cache : Cache}

theorem HasRoom.size_insert_le {key : String} (hr : cache.HasRoom key)
    (h : cache.size ≤ capacity) (entry : Entry) :
    (cache.entries.insert key entry).size ≤ capacity := by
  rw [size] at h
  rcases hr with hs | hm
  · exact Nat.le_trans Std.HashMap.size_insert_le hs
  · rwa [Std.HashMap.size_insert, if_pos hm]

theorem size_set_le (h : cache.size ≤ capacity) (now : Int) (key : String) (data : Json)
    (seconds : Option Nat) : (cache.set now key data seconds).1.size ≤ capacity := by
  rw [set_eq]
  split
  · exact (hasRoom_makeRoom h now key).size_insert_le (size_makeRoom_le h now key) _
  · exact size_makeRoom_le h now key

theorem size_invalidate_le (cache : Cache) (pattern : String) :
    (cache.invalidate pattern).1.size ≤ cache.size :=
  Std.HashMap.size_filter_le_size

theorem size_delete_le (cache : Cache) (key : String) :
    (cache.delete key).1.size ≤ cache.size :=
  Std.HashMap.size_erase_le

end

namespace Session

/-- No step takes a cache beyond its capacity. -/
theorem size_stepAt_le {session : Session} (h : session.cache.size ≤ capacity) (timed : Timed) :
    (session.stepAt timed).1.cache.size ≤ capacity := by
  obtain ⟨time, step⟩ := timed
  have hlook (key : String) : (session.cache.look time key).1.size ≤ capacity :=
    Nat.le_trans (size_look_le _ _ _) h
  rw [stepAt]
  cases step with
  | get key => exact hlook key
  | look key => exact hlook key
  | set key data seconds =>
    rw [step_set]
    exact size_set_le h _ _ _ _
  | delete key => exact Nat.le_trans (size_delete_le _ _) h
  | invalidate pattern => exact Nat.le_trans (size_invalidate_le _ _) h
  | clear => exact Nat.zero_le _
  | getOrSet key seconds duration result =>
    cases hf : (session.cache.look time key).2.data? with
    | some data =>
      rw [step_getOrSet_of_some seconds hf]
      exact hlook key
    | none =>
      cases result with
      | error error =>
        rw [step_getOrSet_error seconds hf]
        exact hlook key
      | ok data =>
        rw [step_getOrSet_ok seconds hf]
        exact size_set_le (hlook key) _ _ _ _

theorem size_run_le {session : Session} (h : session.cache.size ≤ capacity)
    (steps : List Timed) : (session.run steps).cache.size ≤ capacity := by
  induction steps generalizing session with
  | nil => exact h
  | cons timed steps ih => exact ih (size_stepAt_le h timed)

theorem size_opened_le (settings : Settings) (now : Int) :
    (opened settings now).cache.size ≤ capacity :=
  Nat.zero_le _

/-- However the clock moves, and whichever stores fail, a run of a new cache never holds more
entries than the capacity. -/
theorem run_stays_within_capacity (settings : Settings) (start : Int) (steps : List Timed) :
    ((opened settings start).run steps).cache.size ≤ capacity :=
  size_run_le (size_opened_le settings start) steps

end Session

-- ---------------------------------------------------------------------------
-- What a store costs
-- ---------------------------------------------------------------------------

/-- What making room for a key may cost the other keys. With room nothing goes. Without it
all that is expired goes, and only if nothing is, one entry that no other is older than. -/
structure Spares (before after : Cache) (now : Int) (key : String) : Prop where
  roomy : before.HasRoom key →
    ∀ other, other ≠ key → after.entries[other]? = before.entries[other]?
  expired : ¬ before.HasRoom key →
    ∀ other, before.Expired now other → after.entries[other]? = none
  live : ¬ before.HasRoom key → (∃ other, before.Expired now other) →
    ∀ other, other ≠ key → ¬ before.Expired now other →
      after.entries[other]? = before.entries[other]?
  oldest : ¬ before.HasRoom key → (∀ other, ¬ before.Expired now other) →
    ∃ lost, before.IsOldest lost ∧ after.entries[lost]? = none ∧
      ∀ other, other ≠ key → other ≠ lost → after.entries[other]? = before.entries[other]?

section
variable {cache : Cache} {now : Int} {key : String}

theorem notMem_of_not_hasRoom (h : ¬ cache.HasRoom key) : key ∉ cache.entries :=
  fun hm => h (.inr hm)

/-- If something is expired, nothing else has to go. -/
theorem evict_of_expired (h : cache.size ≤ capacity) (hx : ∃ key, cache.Expired now key) :
    cache.evict now = cache.dropExpired now := by
  obtain ⟨key, hx⟩ := hx
  rw [evict, if_pos (Nat.lt_of_lt_of_le hx.size_dropExpired_lt h)]

/-- If nothing is expired, the oldest entry of a full cache goes. -/
theorem evict_of_live (hf : capacity ≤ cache.size) (hx : ∀ key, ¬ cache.Expired now key) :
    ∃ lost, cache.IsOldest lost ∧ (cache.evict now).entries[lost]? = none ∧
      ∀ other, other ≠ lost → (cache.evict now).entries[other]? = cache.entries[other]? := by
  have hkept (key : String) : (cache.dropExpired now).entries[key]? = cache.entries[key]? :=
    getElem?_dropExpired_of_not (hx key)
  rw [← (size_dropExpired_eq_iff cache now).mpr hx] at hf
  obtain ⟨lost, ho, he⟩ := evict_of_full hf
  have holdest : cache.IsOldest lost := by
    simpa only [IsOldest, hkept] using ho
  refine ⟨lost, holdest, ?_, fun other hne => ?_⟩
  · rw [he, erase, Std.HashMap.getElem?_erase_self]
  · rw [he, erase, Std.HashMap.getElem?_erase, if_neg (by simpa using Ne.symm hne), hkept]

theorem spares_makeRoom (h : cache.size ≤ capacity) (now : Int) (key : String) :
    cache.Spares (cache.makeRoom now key) now key where
  roomy hr _ _ := by rw [hr.makeRoom]
  expired hr other hx := by
    rw [makeRoom_of_not_hasRoom hr, evict_of_expired h ⟨other, hx⟩]
    exact hx.getElem?_dropExpired
  live hr hx other _ hl := by
    rw [makeRoom_of_not_hasRoom hr, evict_of_expired h hx]
    exact getElem?_dropExpired_of_not hl
  oldest hr hx := by
    rw [makeRoom_of_not_hasRoom hr]
    obtain ⟨lost, ho, hgone, hkept⟩ :=
      evict_of_live (Nat.le_of_not_lt fun hs => hr (.inl hs)) hx
    exact ⟨lost, ho, hgone, fun other _ hne => hkept other hne⟩

/-- What happens to the key itself does not matter. -/
theorem Spares.congr {after stored : Cache} (h : cache.Spares after now key)
    (hs : ∀ other, other ≠ key → stored.entries[other]? = after.entries[other]?) :
    cache.Spares stored now key where
  roomy hr other hne := (hs other hne).trans (h.roomy hr other hne)
  expired hr other hx := by
    rw [hs other fun he => notMem_of_not_hasRoom hr (he ▸ hx.mem)]
    exact h.expired hr other hx
  live hr hx other hne hl := (hs other hne).trans (h.live hr hx other hne hl)
  oldest hr hx := by
    obtain ⟨lost, ho, hgone, hkept⟩ := h.oldest hr hx
    have hne : lost ≠ key := fun he => notMem_of_not_hasRoom hr (he ▸ ho.mem)
    exact ⟨lost, ho, (hs lost hne).trans hgone, fun other hk hl =>
      (hs other hk).trans (hkept other hk hl)⟩

theorem getElem?_evict_of_none (h : cache.entries[key]? = none) (now : Int) :
    (cache.evict now).entries[key]? = none := by
  have hdrop : (cache.dropExpired now).entries[key]? = none := by
    rw [getElem?_dropExpired, h, Option.filter_none]
  unfold evict
  dsimp only
  split
  · exact hdrop
  · split
    · rw [erase, Std.HashMap.getElem?_erase, hdrop, ite_self]
    · exact hdrop

/-- Making room for a key leaves the key itself as it is. -/
theorem getElem?_makeRoom_self (cache : Cache) (now : Int) (key : String) :
    (cache.makeRoom now key).entries[key]? = cache.entries[key]? := by
  by_cases hr : cache.HasRoom key
  · rw [hr.makeRoom]
  · have habsent : cache.entries[key]? = none :=
      Std.HashMap.getElem?_eq_none (notMem_of_not_hasRoom hr)
    rw [makeRoom_of_not_hasRoom hr, habsent, getElem?_evict_of_none habsent]

end

/-- What a store does to its own key. One that does not fit changes nothing there. -/
theorem set_self (cache : Cache) (now : Int) (key : String) (data : Json)
    (seconds : Option Nat) :
    if (cache.settings.store now data seconds).Fits then
      (cache.set now key data seconds).2 = .ok () ∧
        (cache.set now key data seconds).1.entries[key]? =
          some (cache.settings.store now data seconds).entry
    else
      (cache.set now key data seconds).2 = .error .clockOverflow ∧
        (cache.set now key data seconds).1.entries[key]? = cache.entries[key]? := by
  rw [set_eq]
  split
  · exact ⟨rfl, Std.HashMap.getElem?_insert_self⟩
  · exact ⟨rfl, getElem?_makeRoom_self cache now key⟩

theorem spares_set {cache : Cache} (h : cache.size ≤ capacity) (now : Int) (key : String)
    (data : Json) (seconds : Option Nat) :
    cache.Spares (cache.set now key data seconds).1 now key := by
  refine (spares_makeRoom h now key).congr fun other hne => ?_
  rw [set_eq]
  split
  · rw [Std.HashMap.getElem?_insert, if_neg (by simpa using Ne.symm hne)]
  · rfl

/-- In whatever state a run has left a cache, a store costs the other keys no more than it has
to, and its own key nothing if it does not fit. -/
theorem Session.run_spares_set (settings : Settings) (start : Int) (steps : List Timed)
    (now : Int) (key : String) (data : Json) (seconds : Option Nat) :
    let before := ((opened settings start).run steps).cache
    let after := (before.set now key data seconds).1
    let done := (before.set now key data seconds).2
    before.Spares after now key ∧
      if (settings.store now data seconds).Fits then
        done = .ok () ∧ after.entries[key]? = some (settings.store now data seconds).entry
      else done = .error .clockOverflow ∧ after.entries[key]? = before.entries[key]? := by
  intro before after done
  have hsettings : before.settings = settings := run_settings _ _
  have hself := before.set_self now key data seconds
  rw [hsettings] at hself
  exact ⟨spares_set (size_run_le (size_opened_le settings start) steps) now key data seconds,
    hself⟩

end Folio.Cache
