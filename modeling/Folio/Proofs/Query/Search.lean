import Folio.Database.Affinity
import Folio.Proofs.Query.Operands
import Folio.Proofs.Text.Wildcard

/-!
# What is found by a search

Three operators look for texts in a field. A database is asked with one pattern for each text,
and the pattern describes what has a part like the text. Nothing is missed, so. But a percent
sign and an underscore are not taken as they are: they stand for any run and for any character,
and only a text without them is found just where it occurs.
-/

namespace Folio.Query

open Database (patternPiece textMatches)
open Text.Wildcard (Piece Describes covers_iff describes_append describes_cons describes_nil)

-- ---------------------------------------------------------------------------
-- The language of a pattern
-- ---------------------------------------------------------------------------

/-- The texts that a character of a pattern stands for. -/
def Stands (c : Char) (part : List Char) : Prop :=
  match c with
  | '%' => True
  | '_' => ∃ d, part = [d]
  | c => ∃ d, d.toLower = c.toLower ∧ part = [d]

/-- The whole text is made of parts, one for each character of the pattern in its order. -/
def IsLike (pattern text : List Char) : Prop :=
  ∃ parts, List.Forall₂ Stands pattern parts ∧ text = parts.flatten

/-- The word stands somewhere in the text, where the case of ASCII letters is free. -/
def Occurs (word text : List Char) : Prop :=
  word.map Char.toLower <:+: text.map Char.toLower

instance (word text : List Char) : Decidable (Occurs word text) :=
  inferInstanceAs (Decidable (_ <:+: _))

/-- Every character stands for itself. -/
def IsPlain (word : List Char) : Prop :=
  '%' ∉ word ∧ '_' ∉ word

section
variable {c : Char} {word pattern text part : List Char}

theorem takes_patternPiece : (patternPiece c).Takes part ↔ Stands c part := by
  unfold patternPiece Stands
  split
  · simp [Piece.Takes, Database.isAnyChar]
  · simp [Piece.Takes, Database.isAnyChar]
  · simp [Piece.Takes]

theorem describes_patternPiece :
    Describes (pattern.map patternPiece) text ↔ IsLike pattern text := by
  simp only [Describes, IsLike, List.forall₂_map_left_iff, takes_patternPiece]

theorem textMatches_iff {pattern text : String} :
    textMatches pattern text = true ↔ IsLike pattern.toList text.toList :=
  covers_iff.trans describes_patternPiece

theorem isLike_nil : IsLike [] text ↔ text = [] := by
  rw [← describes_patternPiece, List.map_nil, describes_nil]

theorem isLike_cons :
    IsLike (c :: pattern) text ↔
      ∃ part rest, Stands c part ∧ IsLike pattern rest ∧ text = part ++ rest := by
  simp only [← describes_patternPiece, List.map_cons, describes_cons, takes_patternPiece]

theorem isLike_append {first second : List Char} :
    IsLike (first ++ second) text ↔
      ∃ front rest, IsLike first front ∧ IsLike second rest ∧ text = front ++ rest := by
  simp only [← describes_patternPiece, List.map_append, describes_append]

/-- The pattern of a word describes what has a part like the word. -/
theorem isLike_substring :
    IsLike ('%' :: (word ++ ['%'])) text ↔ ∃ part, part <:+: text ∧ IsLike word part := by
  simp only [isLike_cons, isLike_append, isLike_nil]
  constructor
  · rintro ⟨before, _, -, ⟨part, _, hp, ⟨after, _, -, rfl, rfl⟩, rfl⟩, rfl⟩
    exact ⟨part, ⟨before, after, by simp⟩, hp⟩
  · rintro ⟨part, ⟨before, after, rfl⟩, hp⟩
    exact ⟨before, part ++ after, trivial,
      ⟨part, after, hp, ⟨after, [], trivial, rfl, by simp⟩, rfl⟩, by simp⟩

-- ---------------------------------------------------------------------------
-- Occurrences
-- ---------------------------------------------------------------------------

theorem occurs_iff :
    Occurs word text ↔ ∃ part, part <:+: text ∧ part.map Char.toLower = word.map Char.toLower := by
  constructor
  · rintro ⟨before, after, h⟩
    obtain ⟨front, back, rfl, hf, -⟩ := List.map_eq_append_iff.mp h.symm
    obtain ⟨start, part, rfl, -, hp⟩ := List.map_eq_append_iff.mp hf
    exact ⟨part, ⟨start, back, rfl⟩, hp⟩
  · rintro ⟨part, hi, hp⟩
    rw [Occurs, ← hp]
    exact hi.map Char.toLower

theorem stands_self {d : Char} (h : d.toLower = c.toLower) : Stands c [d] := by
  unfold Stands
  split
  · trivial
  · exact ⟨d, rfl⟩
  · exact ⟨d, h, rfl⟩

/-- Each character stands for itself at least, so a word is like what it equals. -/
theorem isLike_of_map_eq (h : part.map Char.toLower = word.map Char.toLower) :
    IsLike word part := by
  induction word generalizing part with
  | nil => exact isLike_nil.mpr (List.map_eq_nil_iff.mp h)
  | cons c word ih =>
    obtain ⟨d, rest, rfl, hd, hr⟩ := List.map_eq_cons_iff.mp h
    exact isLike_cons.mpr ⟨[d], rest, stands_self hd, ih hr, rfl⟩

theorem IsPlain.isLike_iff (h : IsPlain word) :
    IsLike word part ↔ part.map Char.toLower = word.map Char.toLower := by
  refine ⟨fun hl => ?_, isLike_of_map_eq⟩
  induction word generalizing part with
  | nil => rw [isLike_nil.mp hl]
  | cons c word ih =>
    obtain ⟨hp, hu⟩ := h
    rw [List.mem_cons, not_or] at hp hu
    obtain ⟨_, rest, hs, hr, rfl⟩ := isLike_cons.mp hl
    unfold Stands at hs
    split at hs
    · exact absurd rfl hp.1
    · exact absurd rfl hu.1
    · obtain ⟨d, hd, rfl⟩ := hs
      simp [hd, ih ⟨hp.2, hu.2⟩ hr]

-- ---------------------------------------------------------------------------
-- Texts that are found by mistake
-- ---------------------------------------------------------------------------

/-- A text like the word in which no percent sign and no underscore is left. -/
def instantiate (word : List Char) : List Char :=
  word.flatMap fun
    | '%' => []
    | '_' => ['x']
    | c => [c]

theorem isLike_instantiate (word : List Char) : IsLike word (instantiate word) := by
  induction word with
  | nil => exact isLike_nil.mpr rfl
  | cons c word ih =>
    refine isLike_cons.mpr ⟨_, instantiate word, ?_, ih, List.flatMap_cons⟩
    split
    · trivial
    · exact ⟨'x', rfl⟩
    · exact stands_self rfl

theorem isPlain_instantiate (word : List Char) : IsPlain (instantiate word) := by
  constructor <;>
  · intro hm
    obtain ⟨c, -, hc⟩ := List.mem_flatMap.mp hm
    split at hc <;> simp_all [eq_comm]

/-- Only the lower case letters are the lower case of other characters. -/
theorem eq_of_toLower_eq {d : Char} (h : d.toLower = c) (hc : c.isLower = false) : d = c := by
  unfold Char.toLower at h
  split at h
  · rename_i hu
    subst h
    unfold Char.isLower at hc
    simp only [ge_iff_le, UInt32.le_iff_toNat_le, UInt32.toNat_add] at hc hu
    simp at hc hu
    omega
  · exact h

theorem Occurs.isPlain (h : Occurs word text) (ht : IsPlain text) : IsPlain word := by
  have hmem {mark : Char} (hl : mark.toLower = mark) (hn : mark.isLower = false)
      (hm : mark ∈ word) : mark ∈ text := by
    have hlower : mark ∈ text.map Char.toLower :=
      h.subset (List.mem_map.mpr ⟨mark, hm, hl⟩)
    obtain ⟨d, hd, he⟩ := List.mem_map.mp hlower
    rwa [← eq_of_toLower_eq he hn]
  exact ⟨fun hm => ht.1 (hmem (by decide) (by decide) hm),
    fun hm => ht.2 (hmem (by decide) (by decide) hm)⟩

end

-- ---------------------------------------------------------------------------
-- Searches
-- ---------------------------------------------------------------------------

/-- The operators that look for texts. -/
inductive Search where
  | contains
  | like
  | allOf
  deriving DecidableEq, Repr

namespace Search

def operator : Search → Operator
  | .contains => .contains
  | .like => .like
  | .allOf => .allOf

/-- The texts that are looked for: the whole operand, its words, or its items. -/
def words (search : Search) (operand : Json) : List (List Char) :=
  match search with
  | .contains => [operand.looseText]
  | .like => Text.words operand.looseText
  | .allOf => operand.looseList.map Json.looseText

/-- All parameters are patterns, and the text is like each of them. -/
def Finds (params : List Json) (text : List Char) : Prop :=
  ∀ param ∈ params, ∃ pattern : String, param = .string pattern ∧ IsLike pattern.toList text

theorem exists_compile (search : Search) (field : Field) (operand : Json) :
    ∃ fragment, search.operator.compile field operand = .ok fragment ∧
      fragment.params =
        (search.words operand).map fun word => substringPattern (String.ofList word) := by
  cases search with
  | contains => exact ⟨_, rfl, rfl⟩
  | like => exact ⟨_, rfl, by simp [Fragment.params, words, Function.comp_def]⟩
  | allOf => exact ⟨_, rfl, by simp [Fragment.params, words, Function.comp_def]⟩

theorem finds_iff {words : List (List Char)} {text : List Char} :
    Finds (words.map fun word => substringPattern (String.ofList word)) text ↔
      ∀ word ∈ words, ∃ part, part <:+: text ∧ IsLike word part := by
  have hpattern (word : List Char) : ("%" ++ String.ofList word ++ "%").toList =
      '%' :: (word ++ ['%']) := by simp
  simp only [Finds, List.forall_mem_map, substringPattern, Json.string.injEq, exists_eq_left',
    hpattern, isLike_substring]

/-- A text is found for a word without wildcards just where the word occurs, and for any other
word somewhere else as well. -/
theorem forall_finds_iff {words : List (List Char)} :
    (∀ text, (∀ word ∈ words, ∃ part, part <:+: text ∧ IsLike word part) ↔
        ∀ word ∈ words, Occurs word text) ↔
      ∀ word ∈ words, IsPlain word := by
  constructor
  · intro h word hm
    -- All words together, with nothing left of their wildcards, are found.
    have hplain : IsPlain (instantiate words.flatten) := isPlain_instantiate _
    refine Occurs.isPlain ((h _).mp (fun word hm => ?_) word hm) hplain
    obtain ⟨before, after, rfl⟩ := List.append_of_mem hm
    refine ⟨instantiate word, ?_, isLike_instantiate word⟩
    exact ⟨instantiate before.flatten, instantiate after.flatten, by simp [instantiate]⟩
  · intro h text
    refine forall₂_congr fun word hm => ?_
    rw [occurs_iff]
    simp only [(h word hm).isLike_iff]

/-- The patterns of a search find each text in which all of its words occur, and they find just
these texts if no word has a percent sign or an underscore. Any word with one of them finds more:
a text is found when for each word it has a part like the word. -/
theorem finds_just_occurrences_iff (search : Search) (field : Field) (operand : Json) :
    ∃ fragment, search.operator.compile field operand = .ok fragment ∧
      (∀ text, Finds fragment.params text ↔
        ∀ word ∈ search.words operand, ∃ part, part <:+: text ∧ IsLike word part) ∧
      (∀ text, (∀ word ∈ search.words operand, Occurs word text) → Finds fragment.params text) ∧
      ((∀ text, Finds fragment.params text ↔ ∀ word ∈ search.words operand, Occurs word text) ↔
        ∀ word ∈ search.words operand, IsPlain word) := by
  obtain ⟨fragment, hc, hp⟩ := search.exists_compile field operand
  refine ⟨fragment, hc, ?_⟩
  rw [hp]
  refine ⟨fun text => finds_iff, fun text h => finds_iff.mpr fun word hm => ?_, ?_⟩
  · obtain ⟨part, hi, he⟩ := occurs_iff.mp (h word hm)
    exact ⟨part, hi, isLike_of_map_eq he⟩
  · simp only [finds_iff]
    exact forall_finds_iff

/-- For an underscore every text is found that is not empty, whether it has an underscore or
not. -/
theorem underscore_finds_letter :
    Operator.contains.compile (.column "title") (.string "_") =
        .ok (.contains (.column "title") "_") ∧
      (Fragment.contains (.column "title") "_").params = [.string "%_%"] ∧
      textMatches "%_%" "a" = true ∧ Finds [.string "%_%"] ['a'] ∧ ¬ Occurs ['_'] ['a'] := by
  have hm : textMatches "%_%" "a" = true := by decide
  refine ⟨rfl, rfl, hm, fun param hp => ?_, by decide⟩
  exact ⟨"%_%", List.mem_singleton.mp hp, textMatches_iff.mp hm⟩

end Search

end Folio.Query
