import Folio.Database.Name
import Folio.Query.Fragment
import Folio.Text.Blank
import Mathlib.Data.List.TakeWhile

/-!
# Tokens of conditions

The text of a condition as a reader of SQL sees it: words are as long as they can be,
blanks only keep tokens apart, and placeholders are numbered from the left. The case
of a keyword does not matter.
-/

namespace Folio.Sql

open Database (isWordChar folded reservedWords)
open Query (Comparison)

inductive Keyword where
  | and
  | or
  | not
  | is
  | null
  | like
  /-- The keyword `IN`. -/
  | among
  deriving DecidableEq, Repr

def Keyword.names : List (String × Keyword) :=
  [("and", .and), ("or", .or), ("not", .not), ("is", .is), ("null", .null), ("like", .like),
    ("in", .among)]

def Keyword.sql : Keyword → String
  | .and => "AND"
  | .or => "OR"
  | .not => "NOT"
  | .is => "IS"
  | .null => "NULL"
  | .like => "LIKE"
  | .among => "IN"

inductive Token where
  | keyword (keyword : Keyword)
  | word (text : String)
  | opening
  | closing
  | comma
  | comparison (comparison : Comparison)
  | placeholder (index : Nat)
  | literal (text : String)
  /-- A character that begins no token, or a word that names nothing. -/
  | other (text : String)
  deriving DecidableEq, Repr

/-- Words that no column can have as its name. -/
def IsKeyword (word : String) : Prop :=
  folded word ∈ "like" :: reservedWords

instance (word : String) : Decidable (IsKeyword word) := by
  unfold IsKeyword
  infer_instance

def wordToken (text : String) : Token :=
  match Keyword.names.lookup (folded text) with
  | some keyword => .keyword keyword
  | none => if IsKeyword text then .other text else .word text

/-- The rest of a literal behind its first quote, and what follows it. Within a literal a
quote is written twice. -/
def literalEnd? : List Char → Option (List Char × List Char)
  | [] => none
  | '\'' :: '\'' :: rest => (literalEnd? rest).map fun (text, more) => ('\'' :: text, more)
  | '\'' :: rest => some ([], rest)
  | c :: rest => (literalEnd? rest).map fun (text, more) => (c :: text, more)

theorem length_lt_of_literalEnd? {text literal more : List Char}
    (h : literalEnd? text = some (literal, more)) : more.length < text.length := by
  fun_induction literalEnd? text generalizing literal with
  | case1 => cases h
  | case2 rest ih =>
    simp only [Option.map_eq_some_iff, Prod.exists, Prod.mk.injEq] at h
    obtain ⟨inner, after, hi, _, rfl⟩ := h
    have := ih hi
    simp only [List.length_cons]
    omega
  | case3 rest =>
    cases h
    simp
  | case4 c rest _ _ ih =>
    simp only [Option.map_eq_some_iff, Prod.exists, Prod.mk.injEq] at h
    obtain ⟨inner, after, hi, _, rfl⟩ := h
    have := ih hi
    simp only [List.length_cons]
    omega

def comparison? : Char → List Char → Option (Comparison × List Char)
  | '!', '=' :: rest => some (.notEqual, rest)
  | '<', '=' :: rest => some (.lessOrEqual, rest)
  | '>', '=' :: rest => some (.greaterOrEqual, rest)
  | '<', rest => some (.less, rest)
  | '>', rest => some (.greater, rest)
  | '=', rest => some (.equal, rest)
  | _, _ => none

theorem length_le_of_comparison? {c : Char} {text more : List Char} {comparison : Comparison}
    (h : comparison? c text = some (comparison, more)) : more.length ≤ text.length := by
  unfold comparison? at h
  split at h <;> cases h <;> simp

/-- The tokens of a text whose first placeholder has the number `next`. -/
def tokens (next : Nat) (text : List Char) : List Token :=
  match text with
  | [] => []
  | c :: rest =>
    if isWordChar c then
      wordToken (String.ofList (c :: rest.takeWhile isWordChar)) ::
        tokens next (rest.dropWhile isWordChar)
    else if c = ' ' then tokens next rest
    else if c = '(' then .opening :: tokens next rest
    else if c = ')' then .closing :: tokens next rest
    else if c = ',' then .comma :: tokens next rest
    else if c = '?' then .placeholder next :: tokens (next + 1) rest
    else if c = '\'' then
      match _h : literalEnd? rest with
      | some (literal, more) => .literal (String.ofList literal) :: tokens next more
      | none => [.other "'"]
    else
      match _h : comparison? c rest with
      | some (comparison, more) => .comparison comparison :: tokens next more
      | none => .other (String.singleton c) :: tokens next rest
termination_by text.length
decreasing_by
  · have := (List.dropWhile_suffix isWordChar (l := rest)).length_le
    simp only [List.length_cons]
    omega
  all_goals try simp
  · have := length_lt_of_literalEnd? _h
    omega
  · have := length_le_of_comparison? _h
    omega

-- ---------------------------------------------------------------------------
-- Reading one token
-- ---------------------------------------------------------------------------

/-- A word in front of this text ends there. -/
def EndsWord (text : List Char) : Prop :=
  ∀ c ∈ text.head?, isWordChar c = false

@[simp] theorem endsWord_nil : EndsWord [] := by
  simp [EndsWord]

@[simp] theorem endsWord_cons {c : Char} {text : List Char} :
    EndsWord (c :: text) ↔ isWordChar c = false := by
  simp [EndsWord]

@[simp] theorem isWordChar_space : isWordChar ' ' = false := by
  decide

@[simp] theorem isWordChar_comma : isWordChar ',' = false := by
  decide

@[simp] theorem isWordChar_opening : isWordChar '(' = false := by
  decide

@[simp] theorem isWordChar_closing : isWordChar ')' = false := by
  decide

section
variable (next : Nat) (rest : List Char)

@[simp] theorem tokens_nil : tokens next [] = [] := by
  rw [tokens]

@[simp] theorem tokens_space : tokens next (' ' :: rest) = tokens next rest := by
  rw [tokens, if_neg (by decide), if_pos rfl]

@[simp] theorem tokens_opening : tokens next ('(' :: rest) = .opening :: tokens next rest := by
  rw [tokens]
  simp only [Char.reduceEq, if_false, if_true]
  rw [if_neg (by decide)]

@[simp] theorem tokens_closing : tokens next (')' :: rest) = .closing :: tokens next rest := by
  rw [tokens]
  simp only [Char.reduceEq, if_false, if_true]
  rw [if_neg (by decide)]

@[simp] theorem tokens_comma : tokens next (',' :: rest) = .comma :: tokens next rest := by
  rw [tokens]
  simp only [Char.reduceEq, if_false, if_true]
  rw [if_neg (by decide)]

@[simp] theorem tokens_placeholder :
    tokens next ('?' :: rest) = .placeholder next :: tokens (next + 1) rest := by
  rw [tokens]
  simp only [Char.reduceEq, if_false, if_true]
  rw [if_neg (by decide)]

theorem tokens_word {word : List Char} (hne : word ≠ []) (hw : ∀ c ∈ word, isWordChar c = true)
    {rest : List Char} (hr : EndsWord rest) :
    tokens next (word ++ rest) = wordToken (.ofList word) :: tokens next rest := by
  obtain ⟨c, others, rfl⟩ := List.exists_cons_of_ne_nil hne
  obtain ⟨hc, ho⟩ := List.forall_mem_cons.mp hw
  have htake : rest.takeWhile isWordChar = [] := by
    cases rest with
    | nil => rfl
    | cons d rest => simp [endsWord_cons.mp hr]
  have hdrop : rest.dropWhile isWordChar = rest := by
    cases rest with
    | nil => rfl
    | cons d rest => simp [endsWord_cons.mp hr]
  rw [List.cons_append, tokens, if_pos hc, List.takeWhile_append_of_pos ho,
    List.dropWhile_append_of_pos ho, htake, hdrop, List.append_nil]

@[simp] theorem tokens_keyword (keyword : Keyword) {rest : List Char} (hr : EndsWord rest) :
    tokens next (keyword.sql.toList ++ rest) = .keyword keyword :: tokens next rest := by
  have hw : wordToken keyword.sql = .keyword keyword := by
    cases keyword <;> decide
  have hc : ∀ c ∈ keyword.sql.toList, isWordChar c = true := by
    cases keyword <;> decide
  rw [tokens_word next (by cases keyword <;> decide) hc hr, String.ofList_toList, hw]

theorem wordToken_of_not_isKeyword {word : String} (h : ¬ IsKeyword word) :
    wordToken word = .word word := by
  have hnone : Keyword.names.lookup (folded word) = none := by
    rw [List.lookup_eq_none_iff]
    intro pair hp
    have hm : pair.1 ∈ "like" :: reservedWords :=
      (by decide : ∀ pair ∈ Keyword.names, pair.1 ∈ "like" :: reservedWords) pair hp
    rw [bne_iff_ne]
    intro he
    apply h
    rwa [IsKeyword, he]
  simp [wordToken, hnone, h]

theorem literalEnd?_append {text rest : List Char} (ht : '\'' ∉ text)
    (hr : rest.head? ≠ some '\'') :
    literalEnd? (text ++ '\'' :: rest) = some (text, rest) := by
  induction text with
  | nil =>
    rw [List.nil_append, literalEnd?]
    rintro more rfl
    exact hr rfl
  | cons c text ih =>
    rw [List.mem_cons, not_or] at ht
    rw [List.cons_append, literalEnd?, ih ht.2, Option.map_some]
    · rintro more rfl
      exact absurd rfl ht.1
    · rintro rfl
      exact absurd rfl ht.1

theorem tokens_literal {text rest : List Char} (ht : '\'' ∉ text)
    (hr : rest.head? ≠ some '\'') :
    tokens next ('\'' :: (text ++ '\'' :: rest)) =
      .literal (.ofList text) :: tokens next rest := by
  rw [tokens, if_neg (by decide)]
  simp only [Char.reduceEq, if_false, if_true]
  split
  · case h_1 literal more h =>
    rw [literalEnd?_append ht hr, Option.some.injEq, Prod.mk.injEq] at h
    rw [h.1, h.2]
  · case h_2 h =>
    rw [literalEnd?_append ht hr] at h
    cases h

theorem tokens_comparison_cons {c : Char} (hw : isWordChar c = false) (hc : c ∉ " (),?'".toList)
    {text more : List Char} {comparison : Comparison}
    (h : comparison? c text = some (comparison, more)) :
    tokens next (c :: text) = .comparison comparison :: tokens next more := by
  simp only [String.reduceToList, List.mem_cons, List.not_mem_nil, or_false, not_or] at hc
  obtain ⟨h1, h2, h3, h4, h5, h6⟩ := hc
  rw [tokens, if_neg (by simp [hw]), if_neg h1, if_neg h2, if_neg h3, if_neg h4, if_neg h5,
    if_neg h6]
  split
  · case h_1 found after hf =>
    rw [h, Option.some.injEq, Prod.mk.injEq] at hf
    rw [hf.1, hf.2]
  · case h_2 hf =>
    rw [h] at hf
    cases hf

theorem tokens_comparison (comparison : Comparison) :
    tokens next (comparison.sql.toList ++ ' ' :: rest) =
      .comparison comparison :: tokens next rest := by
  rw [← tokens_space next rest]
  cases comparison <;>
    exact tokens_comparison_cons next (by decide) (by decide) rfl

end

end Folio.Sql
