import Folio.Proofs.Html.Escaping
import Folio.Proofs.Json.Members
import Folio.Proofs.Text.Trimmed

/-!
# Sanitized members

Sanitizing a record replaces the strings of the named members and keeps all else. Each of these
strings is trimmed and escaped once, however often it is named, because what is written comes
from the record as it was. So the order of the names does not count either.
-/

namespace Folio.Html

open Json (Members)
open Text (IsTrimmed isBlank)

-- ---------------------------------------------------------------------------
-- Sanitized texts
-- ---------------------------------------------------------------------------

/-- A text without the marks of a page, and without blanks at its ends. -/
structure IsSanitized (text : List Char) : Prop extends IsTrimmed text where
  notMem : ∀ c ∈ text, c ∉ ['<', '>', '"', '\'']

theorem head?_entity (c : Char) : ∀ d ∈ (entity c).head?, d = c ∨ d = '&' := by
  intro d hd
  by_cases hc : c ∈ marks
  · obtain ⟨name, he, -⟩ := entity_of_mem hc
    rw [he] at hd
    exact .inr (Option.some.inj hd).symm
  · rw [entity_of_notMem hc] at hd
    exact .inl (Option.some.inj hd).symm

theorem getLast?_entity (c : Char) : ∀ d ∈ (entity c).getLast?, d = c ∨ d = ';' := by
  intro d hd
  by_cases hc : c ∈ marks
  · obtain ⟨name, he, -⟩ := entity_of_mem hc
    rw [he, ← List.cons_append, List.getLast?_concat] at hd
    exact .inr (Option.some.inj hd).symm
  · rw [entity_of_notMem hc] at hd
    exact .inl (Option.some.inj hd).symm

theorem entity_ne_nil (c : Char) : entity c ≠ [] := by
  by_cases hc : c ∈ marks
  · obtain ⟨name, he, -⟩ := entity_of_mem hc
    simp [he]
  · simp [entity_of_notMem hc]

theorem isTrimmed_escapeChars {text : List Char} (h : IsTrimmed text) :
    IsTrimmed (escapeChars text) where
  head d hd := by
    cases text with
    | nil => cases hd
    | cons c rest =>
      rw [escapeChars_cons, List.head?_append_of_ne_nil _ (entity_ne_nil c)] at hd
      rcases head?_entity c d hd with rfl | rfl
      · exact h.head d rfl
      · decide
  last d hd := by
    rcases List.eq_nil_or_concat text with rfl | ⟨front, c, rfl⟩
    · cases hd
    · have hlast : escapeChars (front ++ [c]) = escapeChars front ++ entity c := by
        rw [escapeChars_append, escapeChars_cons, show escapeChars [] = [] from rfl,
          List.append_nil]
      rw [List.concat_eq_append, hlast, List.getLast?_append_of_ne_nil _ (entity_ne_nil c)] at hd
      rcases getLast?_entity c d hd with rfl | rfl
      · exact h.last d (by simp)
      · decide

theorem isSanitized_escapeChars_trim (text : List Char) :
    IsSanitized (escapeChars (Text.trim text)) where
  toIsTrimmed := isTrimmed_escapeChars (Text.isTrimmed_trim text)
  notMem c hc hm := by
    have hamp := eq_ampersand_of_mem_escapeChars hc (List.mem_cons_of_mem _ hm)
    subst hamp
    exact absurd hm (by decide)

theorem isSanitized_sanitize (value : Json) : IsSanitized (sanitize value).toList := by
  unfold sanitize
  split
  · rw [String.toList_ofList]
    exact isSanitized_escapeChars_trim _
  · exact isSanitized_escapeChars_trim []

/-- A string is trimmed, and what is left of it is escaped. -/
theorem sanitize_string (s : String) :
    sanitize (.string s) = String.ofList (escapeChars (Text.trim s.toList)) := by
  rw [sanitize, Json.looseText_string]
  split
  · rfl
  · next h =>
    have hempty : s.toList = [] := by simpa [Json.truthy] using h
    rw [hempty]
    rfl

-- ---------------------------------------------------------------------------
-- Values of named members
-- ---------------------------------------------------------------------------

/-- What stands for the value of a named member. -/
def sanitizedValue : Json → Json
  | .string s => .string (sanitize (.string s))
  | value => value

def sanitizedIn (names : List String) (name : String) (value : Json) : Json :=
  if name ∈ names then sanitizedValue value else value

section
variable {names others : List String} {name key : String} {value : Json}

theorem sanitizedIn_of_mem (h : name ∈ names) :
    sanitizedIn names name value = sanitizedValue value :=
  if_pos h

theorem sanitizedIn_of_notMem (h : name ∉ names) : sanitizedIn names name value = value :=
  if_neg h

theorem sanitizedIn_of_ne (h : ∀ s, value ≠ .string s) : sanitizedIn names name value = value := by
  have hsame : sanitizedValue value = value := by
    cases value with
    | string s => exact absurd rfl (h s)
    | _ => rfl
  rw [sanitizedIn, hsame, ite_self]

theorem sanitizedIn_congr (h : key ∈ others ↔ key ∈ names) :
    sanitizedIn others key = sanitizedIn names key := by
  funext value
  simp only [sanitizedIn, h]

end

-- ---------------------------------------------------------------------------
-- Members
-- ---------------------------------------------------------------------------

/-- The members with the strings of the named ones sanitized. -/
def sanitizedAt (members : Members) (names : List String) : Members :=
  members.map fun m => (m.1, sanitizedIn names m.1 m.2)

/-- Writes the string of one name, sanitized as it is in `members`. -/
def touch (members result : Members) (name : String) : Members :=
  match members.get? name with
  | some (.string s) => result.insert name (.string (sanitize (.string s)))
  | _ => result

theorem sanitizeMembers_eq (members : Members) (names : List String) :
    sanitizeMembers members names = names.foldl (touch members) members :=
  rfl

theorem get?_sanitizedAt (members : Members) (names : List String) (key : String) :
    (sanitizedAt members names).get? key = (members.get? key).map (sanitizedIn names key) :=
  Members.get?_map (sanitizedIn names) members key

variable {members : Members}

theorem sorted_sanitizedAt (h : members.Sorted) (names : List String) :
    (sanitizedAt members names).Sorted :=
  h.map (sanitizedIn names)

theorem sanitizedAt_congr {names others : List String}
    (h : ∀ name, name ∈ others ↔ name ∈ names) (members : Members) :
    sanitizedAt members others = sanitizedAt members names := by
  simp only [sanitizedAt, sanitizedIn_congr (h _)]

theorem sorted_touch {result : Members} (h : result.Sorted) (name : String) :
    (touch members result name).Sorted := by
  unfold touch
  split
  · exact h.insert _ _
  · exact h

/-- What a key finds after one more name was written comes from the record as it was. -/
theorem get?_touch_sanitizedAt (members : Members) (names : List String) (name key : String) :
    (touch members (sanitizedAt members names) name).get? key =
      (sanitizedAt members (name :: names)).get? key := by
  have hother (hk : key ≠ name) : (sanitizedAt members names).get? key =
      (sanitizedAt members (name :: names)).get? key := by
    have hmem : key ∈ name :: names ↔ key ∈ names := by simp [hk]
    rw [get?_sanitizedAt, get?_sanitizedAt, sanitizedIn_congr hmem]
  unfold touch
  split
  · next s hs =>
    rw [Members.get?_insert]
    split
    · next hk =>
      subst hk
      rw [get?_sanitizedAt, hs, Option.map_some, sanitizedIn_of_mem List.mem_cons_self,
        sanitizedValue]
    · next hk => exact hother hk
  · next hs =>
    by_cases hk : key = name
    · subst hk
      rw [get?_sanitizedAt, get?_sanitizedAt]
      refine Option.map_congr fun value hv => ?_
      have hne (s : String) : value ≠ .string s := fun he => hs s (he ▸ hv)
      rw [sanitizedIn_of_ne hne, sanitizedIn_of_ne hne]
    · exact hother hk

theorem touch_sanitizedAt (h : members.Sorted) (names : List String) (name : String) :
    touch members (sanitizedAt members names) name = sanitizedAt members (name :: names) :=
  Members.Sorted.ext (sorted_touch (sorted_sanitizedAt h names) name)
    (sorted_sanitizedAt h _) (get?_touch_sanitizedAt members names name)

theorem foldl_touch_sanitizedAt (h : members.Sorted) (names done : List String) :
    names.foldl (touch members) (sanitizedAt members done) =
      sanitizedAt members (names ++ done) := by
  induction names generalizing done with
  | nil => rfl
  | cons name names ih =>
    rw [List.foldl_cons, touch_sanitizedAt h, ih]
    exact sanitizedAt_congr (fun other => List.perm_middle.mem_iff) members

theorem sanitizeMembers_eq_sanitizedAt (h : members.Sorted) (names : List String) :
    sanitizeMembers members names = sanitizedAt members names := by
  have hstart : sanitizedAt members [] = members := by
    simp [sanitizedAt, sanitizedIn_of_notMem]
  have hrun := foldl_touch_sanitizedAt h names []
  rw [hstart, List.append_nil] at hrun
  rw [sanitizeMembers_eq, hrun]

/-- The keys stay, each named string is trimmed and escaped once, and no other value changes. So
only which names there are counts, and nothing that is written can harm a page. -/
theorem sanitizeMembers_touches_named_strings (h : members.Sorted) (names : List String) :
    (sanitizeMembers members names).map Prod.fst = members.map Prod.fst ∧
      (∀ name ∈ names, ∀ s, members.get? name = some (.string s) →
        (sanitizeMembers members names).get? name = some (.string (sanitize (.string s)))) ∧
      (∀ key, (key ∈ names → ∀ s, members.get? key ≠ some (.string s)) →
        (sanitizeMembers members names).get? key = members.get? key) ∧
      (∀ others, (∀ name, name ∈ others ↔ name ∈ names) →
        sanitizeMembers members others = sanitizeMembers members names) ∧
      (∀ s, sanitize (.string s) = String.ofList (escapeChars (Text.trim s.toList))) ∧
      ∀ value, IsSanitized (sanitize value).toList := by
  simp only [sanitizeMembers_eq_sanitizedAt h]
  refine ⟨by simp [sanitizedAt], fun name hn s hs => ?_, fun key hk => ?_,
    fun others ho => sanitizedAt_congr ho members, sanitize_string, isSanitized_sanitize⟩
  · rw [get?_sanitizedAt, hs, Option.map_some, sanitizedIn_of_mem hn, sanitizedValue]
  · rw [get?_sanitizedAt]
    cases hv : members.get? key with
    | none => rfl
    | some value =>
      refine congrArg some ?_
      by_cases hn : key ∈ names
      · exact sanitizedIn_of_ne fun s he => hk hn s (he ▸ hv)
      · exact sanitizedIn_of_notMem hn

/-- The title is named twice, the number is no string, and one name is nowhere. -/
theorem post_touches_named_strings :
    let post : Members := [("body", .string "<p>keep</p>"), ("count", .int 3),
      ("title", .string " <h1>Tom & 'Jerry'</h1> ")]
    let names := ["title", "count", "missing", "title"]
    post.Sorted ∧ (sanitizeMembers post names).map Prod.fst = ["body", "count", "title"] ∧
      (sanitizeMembers post names).get? "title" =
        some (.string "&lt;h1&gt;Tom &amp; &#039;Jerry&#039;&lt;/h1&gt;") ∧
      (sanitizeMembers post names).get? "body" = some (.string "<p>keep</p>") ∧
      (sanitizeMembers post names).get? "missing" = none ∧
      sanitizeMembers post ["count", "missing", "title"] = sanitizeMembers post names := by
  intro post names
  have hs : post.Sorted := Members.sorted_of_keys (by decide)
  obtain ⟨hkeys, hnamed, hother, hnames, htext, -⟩ :=
    sanitizeMembers_touches_named_strings hs names
  have htitle : sanitize (.string " <h1>Tom & 'Jerry'</h1> ") =
      "&lt;h1&gt;Tom &amp; &#039;Jerry&#039;&lt;/h1&gt;" := by
    rw [htext]
    decide
  have hnamed := hnamed "title" (by decide) _ rfl
  rw [htitle] at hnamed
  have hmissing : post.get? "missing" = none := by decide
  have hbody := hother "body" fun hm => absurd hm (by decide)
  have hnone := hother "missing" fun _ s hm => by cases hmissing.symm.trans hm
  have hsame := hnames ["count", "missing", "title"] fun name => by
    simp only [names, List.mem_cons, List.not_mem_nil, or_false]
    tauto
  exact ⟨hs, hkeys, hnamed, hbody, hnone.trans hmissing, hsame⟩

end Folio.Html
