import Folio.Proofs.Cache.Log
import Folio.Proofs.Text.Separator
import Folio.Proofs.Text.Wildcard

/-!
# What invalidation takes away

A pattern takes away the keys that fall into parts, one for each of its characters, and no
other entry is touched. The pattern for all items of a kind so takes away what was stored
under that kind, and leaves the other kinds alone. It misses the items whose id holds a line
break, because a star does not stand for one.
-/

namespace Folio.Cache

open Text.Wildcard (Piece Describes covers_iff describes_append describes_cons describes_nil)

-- ---------------------------------------------------------------------------
-- The language of a pattern
-- ---------------------------------------------------------------------------

/-- The texts that a character of a pattern stands for. -/
def Stands (c : Char) (part : List Char) : Prop :=
  match c with
  | '*' => '\n' ∉ part
  | '?' => ∃ d, d ≠ '\n' ∧ part = [d]
  | c => part = [c]

/-- The whole key is made of parts, one for each character of the pattern in its order. -/
def DescribesKey (pattern key : String) : Prop :=
  ∃ parts, List.Forall₂ Stands pattern.toList parts ∧ key.toList = parts.flatten

theorem takes_globPiece {c : Char} {part : List Char} : (globPiece c).Takes part ↔ Stands c part := by
  unfold globPiece Stands
  split
  · simp only [Piece.Takes, isInline, decide_eq_true_eq]
    exact ⟨fun h hm => h _ hm rfl, fun h d hd he => h (he ▸ hd)⟩
  · simp [Piece.Takes, isInline]
  · simp [Piece.Takes]

theorem describes_globPiece {pattern key : String} :
    Describes (pattern.toList.map globPiece) key.toList ↔ DescribesKey pattern key := by
  simp only [Describes, DescribesKey, List.forall₂_map_left_iff, takes_globPiece]

theorem globMatches_iff {pattern key : String} :
    globMatches pattern key = true ↔ DescribesKey pattern key :=
  covers_iff.trans describes_globPiece

-- ---------------------------------------------------------------------------
-- Entries that go and entries that stay
-- ---------------------------------------------------------------------------

section
variable {cache : Cache} {pattern key : String}

theorem getElem?_invalidate (cache : Cache) (pattern key : String) :
    (cache.invalidate pattern).1.entries[key]? =
      if globMatches pattern key then none else cache.entries[key]? := by
  rw [invalidate, Std.HashMap.getElem?_filter']
  cases cache.entries[key]? <;> cases globMatches pattern key <;> simp

theorem mem_invalidate :
    key ∈ (cache.invalidate pattern).1.entries ↔
      key ∈ cache.entries ∧ globMatches pattern key = false := by
  rw [Std.HashMap.mem_iff_isSome_getElem?, getElem?_invalidate, Std.HashMap.mem_iff_isSome_getElem?]
  cases globMatches pattern key <;> simp

theorem count_invalidate (cache : Cache) (pattern : String) :
    (cache.invalidate pattern).2 = (cache.entries.keys.filter (globMatches pattern)).length := by
  have hkept : (cache.entries.filter fun key _ => !globMatches pattern key).size =
      (cache.entries.keys.filter fun key => !globMatches pattern key).length := by
    rw [← Std.HashMap.length_keys]
    exact Std.HashMap.keys_filter_key.length_eq
  have hall := List.length_eq_length_filter_add (l := cache.entries.keys) (globMatches pattern)
  rw [Std.HashMap.length_keys] at hall
  show cache.entries.size - (cache.entries.filter _).size = _
  rw [hkept]
  omega

/-- The keys that a pattern describes go, all other entries stay as they are, and as many went
as were counted, so the same pattern finds nothing more. -/
theorem invalidate_removes_described (cache : Cache) (pattern : String) :
    let after := (cache.invalidate pattern).1
    let count := (cache.invalidate pattern).2
    (∀ key, DescribesKey pattern key → key ∉ after.entries) ∧
      (∀ key, ¬ DescribesKey pattern key → after.entries[key]? = cache.entries[key]?) ∧
      count = (cache.entries.keys.filter fun key => key ∉ after.entries).length ∧
      (after.invalidate pattern).2 = 0 := by
  intro after count
  simp only [← globMatches_iff]
  have hgone (key : String) (hm : globMatches pattern key = true) : key ∉ after.entries := by
    rw [mem_invalidate, hm]
    exact fun h => Bool.noConfusion h.2
  have hsame : cache.entries.keys.filter (fun key => decide (key ∉ after.entries)) =
      cache.entries.keys.filter (globMatches pattern) := by
    refine List.filter_congr fun key hk => ?_
    have hmem := Std.HashMap.mem_of_mem_keys hk
    rw [Bool.eq_iff_iff, decide_eq_true_eq, mem_invalidate]
    simp [hmem]
  refine ⟨hgone, fun key hm => ?_, ?_, ?_⟩
  · rw [getElem?_invalidate, if_neg hm]
  · rw [hsame]
    exact count_invalidate cache pattern
  · rw [count_invalidate, List.length_eq_zero_iff, List.filter_eq_nil_iff]
    exact fun key hk hm => hgone key hm (Std.HashMap.mem_of_mem_keys hk)

end

-- ---------------------------------------------------------------------------
-- Kinds
-- ---------------------------------------------------------------------------

/-- Every character stands for itself. -/
def IsLiteral (text : String) : Prop :=
  ∀ c ∈ text.toList, c ≠ '*' ∧ c ≠ '?'

instance (text : String) : Decidable (IsLiteral text) :=
  inferInstanceAs (Decidable (∀ c ∈ text.toList, c ≠ '*' ∧ c ≠ '?'))

/-- The names that kinds of data may have: what follows in a key can be told from them. -/
structure IsKind (kind : String) : Prop where
  literal : IsLiteral kind
  notMem : ':' ∉ kind.toList

section
variable {front key : String}

theorem IsLiteral.append {first second : String} (h : IsLiteral first) (hs : IsLiteral second) :
    IsLiteral (first ++ second) := by
  intro c hc
  rw [String.toList_append, List.mem_append] at hc
  exact hc.elim (h c) (hs c)

theorem stands_of_ne {c : Char} (hstar : c ≠ '*') (hone : c ≠ '?') {part : List Char} :
    Stands c part ↔ part = [c] := by
  unfold Stands
  split
  · exact absurd rfl hstar
  · exact absurd rfl hone
  · exact Iff.rfl

theorem describes_literal {chars text : List Char} (h : ∀ c ∈ chars, c ≠ '*' ∧ c ≠ '?') :
    Describes (chars.map globPiece) text ↔ text = chars := by
  induction chars generalizing text with
  | nil => exact describes_nil
  | cons c chars ih =>
    obtain ⟨⟨hstar, hone⟩, hrest⟩ := List.forall_mem_cons.mp h
    simp [describes_cons, takes_globPiece, stands_of_ne hstar hone, ih hrest]

/-- A star behind a literal front describes what begins with it and stays on one line. -/
theorem globMatches_star (h : IsLiteral front) :
    globMatches (front ++ "*") key = true ↔
      ∃ rest : String, key = front ++ rest ∧ '\n' ∉ rest.toList := by
  have hstar {part : List Char} : (globPiece '*').Takes part ↔ '\n' ∉ part := takes_globPiece
  rw [globMatches, covers_iff, String.toList_append, List.map_append, describes_append]
  simp only [describes_literal h]
  constructor
  · rintro ⟨_, rest, rfl, hr, hk⟩
    obtain ⟨part, _, ht, he, rfl⟩ := describes_cons.mp hr
    rw [describes_nil.mp he, List.append_nil] at hk
    exact ⟨String.ofList part, String.ext (by simpa using hk), by simpa using hstar.mp ht⟩
  · rintro ⟨rest, rfl, hr⟩
    refine ⟨_, rest.toList, rfl, ?_, String.toList_append⟩
    exact describes_cons.mpr
      ⟨rest.toList, [], hstar.mpr hr, describes_nil.mpr rfl, (List.append_nil _).symm⟩

end

section
variable {settings : Settings} {kind other : String}

/-- What stands behind the kind in a key. -/
def itemPart : Option String → List Char
  | none => []
  | some id => ':' :: id.toList

theorem Settings.toList_key (settings : Settings) (kind : String) (id : Option String) :
    (settings.key kind id).toList =
      settings.keyPrefix.toList ++ ':' :: (kind.toList ++ itemPart id) := by
  cases id <;> simp [key, itemPart]

/-- Kinds without a colon can be read off the keys of items. -/
theorem Settings.key_eq_key_some (hk : IsKind kind) (ho : IsKind other) {id : Option String}
    {text : String} :
    settings.key other id = settings.key kind (some text) ↔ other = kind ∧ id = some text := by
  refine ⟨fun h => ?_, by rintro ⟨rfl, rfl⟩; rfl⟩
  have hchars := congrArg String.toList h
  rw [toList_key, toList_key] at hchars
  have hrest := (List.cons.inj (List.append_cancel_left hchars)).2
  cases id with
  | none =>
    rw [itemPart, itemPart, List.append_nil] at hrest
    exact absurd (hrest ▸ by simp) ho.notMem
  | some id =>
    obtain ⟨hkind, hid⟩ := Text.eq_of_append_cons ho.notMem hk.notMem hrest
    exact ⟨String.ext hkind, congrArg some (String.ext hid)⟩

/-- The pattern for all items of a kind describes the keys of its items, except for ids that
go over several lines. -/
theorem Settings.globMatches_key (hp : IsLiteral settings.keyPrefix) (hk : IsKind kind)
    {key : String} :
    globMatches (settings.key kind (some "*")) key = true ↔
      ∃ id : String, key = settings.key kind (some id) ∧ '\n' ∉ id.toList := by
  have hcolon : IsLiteral ":" := by decide
  exact globMatches_star (((hp.append hcolon).append hk.literal).append hcolon)

end

/-- The pattern for all items of a kind takes away those whose id is on one line, and nothing
else. Other kinds stay as they are, and so does what has no id, or one with a line break. -/
theorem invalidate_kind {cache : Cache} (hp : IsLiteral cache.settings.keyPrefix) {kind : String}
    (hk : IsKind kind) :
    let after := (cache.invalidate (cache.settings.key kind (some "*"))).1
    (∀ key ∈ cache.entries, key ∉ after.entries ↔
        ∃ id : String, key = cache.settings.key kind (some id) ∧ '\n' ∉ id.toList) ∧
      ∀ (other : String) (id : Option String), IsKind other →
        (other ≠ kind ∨ id = none ∨ ∃ text : String, id = some text ∧ '\n' ∈ text.toList) →
        after.entries[cache.settings.key other id]? =
          cache.entries[cache.settings.key other id]? := by
  intro after
  refine ⟨fun key hm => ?_, fun other id ho hstays => ?_⟩
  · rw [← Settings.globMatches_key hp hk, mem_invalidate]
    simp [hm]
  · rw [getElem?_invalidate, if_neg]
    rw [Settings.globMatches_key hp hk]
    rintro ⟨text, he, hn⟩
    obtain ⟨rfl, rfl⟩ := (Settings.key_eq_key_some hk ho).mp he
    rcases hstays with hne | hnone | ⟨_, hsome, hbreak⟩
    · exact hne rfl
    · cases hnone
    · cases hsome
      exact hn hbreak

/-- An item with an id of unusual characters, and an item of a kind with a longer name. -/
def twoKinds : Cache :=
  ⟨⟨60, "api"⟩, ((∅ : Std.HashMap String Entry).insert "api:post:.*:?é" ⟨.int 1, 0, 60⟩).insert
    "api:posts:1" ⟨.int 2, 0, 60⟩⟩

theorem twoKinds_invalidated :
    (IsLiteral "api" ∧ IsKind "post" ∧ IsKind "posts") ∧ "api:post:.*:?é" ∈ twoKinds.entries ∧
      let after := (twoKinds.invalidate "api:post:*").1
      "api:post:.*:?é" ∉ after.entries ∧
        after.entries["api:posts:1"]? = some ⟨.int 2, 0, 60⟩ := by
  have hpost : IsKind "post" := ⟨by decide, by decide⟩
  have hposts : IsKind "posts" := ⟨by decide, by decide⟩
  have hp : IsLiteral twoKinds.settings.keyPrefix := by decide
  have hm : "api:post:.*:?é" ∈ twoKinds.entries := by simp [twoKinds]
  obtain ⟨hgone, hstay⟩ := invalidate_kind hp hpost
  refine ⟨⟨hp, hpost, hposts⟩, hm, (hgone _ hm).mpr ⟨".*:?é", rfl, by decide⟩, ?_⟩
  exact (hstay "posts" (some "1") hposts (.inl (by decide))).trans
    Std.HashMap.getElem?_insert_self

/-- An item whose id holds a line break is still found when its kind was taken away. -/
theorem brokenId_survives :
    let settings : Settings := ⟨60, "api"⟩
    let key := settings.key "post" (some "a\nb")
    let cache := ((ofSettings settings).set 0 key (.int 1) none).1
    let left := cache.invalidate (settings.key "post" (some "*"))
    IsLiteral settings.keyPrefix ∧ IsKind "post" ∧ (∀ other ∈ cache.entries, other = key) ∧
      left.2 = 0 ∧ (left.1.get 0 key).2 = some (.int 1) := by
  intro settings key cache left
  have hroom : (ofSettings settings).HasRoom key := .inl (by decide)
  have hcache : cache = { ofSettings settings with
      entries := (ofSettings settings).entries.insert key
        (settings.store 0 (.int 1) none).entry } := by
    have hset := hroom.set 0 (.int 1) none
    rw [if_pos (by decide)] at hset
    exact congrArg Prod.fst hset
  have honly (other : String) (h : other ∈ cache.entries) : other = key := by
    rw [hcache, Std.HashMap.mem_insert] at h
    exact (beq_iff_eq.mp (h.resolve_right Std.HashMap.not_mem_empty)).symm
  have hmiss : globMatches (settings.key "post" (some "*")) key = false := by decide
  have hfound : left.1.entries[key]? = some (settings.store 0 (.int 1) none).entry := by
    rw [getElem?_invalidate, if_neg (by simp [hmiss]), hcache]
    exact Std.HashMap.getElem?_insert_self
  refine ⟨by decide, ⟨by decide, by decide⟩, honly, ?_, ?_⟩
  · rw [count_invalidate, List.length_eq_zero_iff, List.filter_eq_nil_iff]
    intro other ho
    rw [honly other (Std.HashMap.mem_of_mem_keys ho), hmiss]
    exact Bool.false_ne_true
  · rw [get, look_of_live hfound (by decide)]
    rfl

end Folio.Cache
