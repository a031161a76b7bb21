import Folio.Proofs.Query.Clean
import Folio.Proofs.Sql.Reader

/-!
# The pieces of a fragment

Read from its text, a fragment is the tests that it stands for, with its own
parentheses and connectives. Its placeholders take the next numbers. What follows
a fragment is a blank, a closing parenthesis or the end.
-/

namespace Folio.Query

open Sql (Token Piece Keyword EndsWord IsKeyword tokens test? atom? pieces? operands? chained)
open Database (isWordChar)
open Database.Condition (parts parameters)

def Field.base : Field → String
  | .column name => name
  | .path base _ => base

def Field.tokens : Field → List Token
  | .column name => [.word name]
  | .path base steps =>
    [.word "json_extract", .opening, .word base, .comma, .literal ("$." ++ steps), .closing]

/-- A field that is read as one: its column is no keyword. -/
structure Field.Readable (field : Field) : Prop where
  clean : field.Clean
  base : ¬ IsKeyword field.base

def Fragment.Readable (fragment : Fragment) : Prop := fragment.field.Readable

/-- The pieces of a text whose first placeholder has the number `next`. -/
def scan (next : Nat) (text : List Char) : Option (List Piece) :=
  pieces? (Sql.tokens next text)

/-- What a fragment is read as when its first placeholder has the number `index`. -/
def Fragment.pieces (index : Nat) : Fragment → List Piece
  | .containsAll field texts =>
    if texts.isEmpty then [.test (.known true)]
    else
      .opening :: chained .and ((parameters index texts.length).map (.like field)) ++ [.closing]
  | .unfilled field =>
    .opening :: chained .or [.isNull field, .compare field .equal .emptyText] ++ [.closing]
  | fragment => chained .and (parts index fragment)

-- ---------------------------------------------------------------------------
-- Fields
-- ---------------------------------------------------------------------------

section
variable {field : Field} {next : Nat}

theorem IsColumn.tokens {name : String} (h : IsColumn name) (hk : ¬ IsKeyword name)
    {rest : List Char} (hr : EndsWord rest) :
    Sql.tokens next (name.toList ++ rest) = .word name :: Sql.tokens next rest := by
  rw [Sql.tokens_word next h.1 h.2 hr, String.ofList_toList, Sql.wordToken_of_not_isKeyword hk]

theorem Field.tokens_sql (hf : field.Readable) {rest : List Char} (hr : EndsWord rest) :
    Sql.tokens next (field.sql.toList ++ rest) = field.tokens ++ Sql.tokens next rest := by
  cases field with
  | column name => exact IsColumn.tokens hf.clean hf.base hr
  | path base steps =>
    obtain ⟨hb, hs⟩ := hf.clean
    have hq : '\'' ∉ '$' :: '.' :: steps.toList := by
      have hsteps : '\'' ∉ steps.toList := notMem_of_isNameChar (by decide) hs
      simp [hsteps]
    have hfunction (text : List Char) : Sql.tokens next ("json_extract".toList ++ '(' :: text) =
        .word "json_extract" :: .opening :: Sql.tokens next text := by
      rw [Sql.tokens_word next (by decide) (by decide) (by simp), String.ofList_toList,
        Sql.wordToken_of_not_isKeyword (by decide), Sql.tokens_opening]
    have hcolumn (text : List Char) : Sql.tokens next (base.toList ++ ',' :: ' ' :: text) =
        .word base :: .comma :: Sql.tokens next text := by
      rw [IsColumn.tokens hb hf.base (by simp), Sql.tokens_comma, Sql.tokens_space]
    have hpath : Sql.tokens next ('\'' :: ('$' :: '.' :: steps.toList ++ '\'' :: ')' :: rest)) =
        .literal ("$." ++ steps) :: .closing :: Sql.tokens next rest := by
      rw [Sql.tokens_literal next hq (by simp), Sql.tokens_closing]
      congr 2
      apply String.toList_injective
      simp
    calc Sql.tokens next ((Field.path base steps).sql.toList ++ rest)
        = Sql.tokens next ("json_extract".toList ++ '(' :: (base.toList ++ ',' :: ' ' :: '\'' ::
            ('$' :: '.' :: steps.toList ++ '\'' :: ')' :: rest))) := by
          congr 1
          simp
      _ = (Field.path base steps).tokens ++ Sql.tokens next rest := by
          rw [hfunction, hcolumn, hpath]
          rfl

theorem atom?_tokens {text rest : List Token} {condition : Database.Condition}
    (h : test? field text = some (condition, rest)) :
    atom? (field.tokens ++ text) = some (condition, rest) := by
  cases field with
  | path base steps =>
    have hp : ("$." ++ steps).toList = '$' :: '.' :: steps.toList := by
      simp
    have hf : Sql.field? (.word "json_extract" :: .opening :: .word base :: .comma ::
        .literal ("$." ++ steps) :: .closing :: text) = some (.path base steps, text) := by
      simp [Sql.field?, hp]
    simp only [Field.tokens, List.cons_append, List.nil_append, atom?, hf]
    exact h
  | column name =>
    unfold test? at h
    split at h
    · exact h
    · exact h
    · rename_i comparison token more
      -- A word behind a comparison is no operand, so the column is not taken for a number.
      cases token with
      | word other => cases h
      | _ => cases comparison <;> exact h
    · exact h
    · exact h
    · exact h
    · cases h

theorem Field.tokens_eq_word (field : Field) :
    ∃ name rest, field.tokens = .word name :: rest := by
  cases field <;> exact ⟨_, _, rfl⟩

theorem scan_test (hf : field.Readable) {text rest : List Char} {later : Nat}
    {condition : Database.Condition}
    (h : test? field (Sql.tokens next (' ' :: text)) = some (condition, Sql.tokens later rest)) :
    scan next (field.sql.toList ++ ' ' :: text) =
      (scan later rest).map (.test condition :: ·) := by
  obtain ⟨name, others, hw⟩ := field.tokens_eq_word
  have ha := atom?_tokens h
  rw [hw, List.cons_append] at ha
  unfold scan
  rw [Field.tokens_sql hf (by simp), hw, List.cons_append, Sql.pieces?_word ha]

end

-- ---------------------------------------------------------------------------
-- Tests
-- ---------------------------------------------------------------------------

def Follows (text : List Char) : Prop :=
  ∀ c ∈ text.head?, c = ' ' ∨ c = ')'

theorem Follows.endsWord {text : List Char} (h : Follows text) : EndsWord text := by
  intro c hc
  rcases h c hc with rfl | rfl <;> simp

theorem Follows.head?_ne {text : List Char} (h : Follows text) : text.head? ≠ some '\'' := by
  intro hc
  rcases h '\'' hc with he | he <;> cases he

/-- The text is read as the pieces whatever follows, and `count` numbers are used up. -/
def IsReadAs (text : String) (next count : Nat) (pieces : List Piece) : Prop :=
  ∀ rest, Follows rest →
    scan next (text.toList ++ rest) = (scan (next + count) rest).map (pieces ++ ·)

section
variable {field : Field} (next : Nat)

theorem isReadAs_isNull (hf : field.Readable) :
    IsReadAs (field.sql ++ " IS NULL") next 0 [.test (.isNull field)] := by
  intro rest hr
  have htext : (field.sql ++ " IS NULL").toList ++ rest =
      field.sql.toList ++ ' ' :: (Keyword.is.sql.toList ++
        ' ' :: (Keyword.null.sql.toList ++ rest)) := by
    simp [Keyword.sql]
  rw [htext]
  apply scan_test hf
  rw [Sql.tokens_space, Sql.tokens_keyword next .is (by simp), Sql.tokens_space,
    Sql.tokens_keyword next .null hr.endsWord]
  rfl

theorem isReadAs_isNotNull (hf : field.Readable) :
    IsReadAs (field.sql ++ " IS NOT NULL") next 0 [.test (.isNotNull field)] := by
  intro rest hr
  have htext : (field.sql ++ " IS NOT NULL").toList ++ rest =
      field.sql.toList ++ ' ' :: (Keyword.is.sql.toList ++ ' ' :: (Keyword.not.sql.toList ++
        ' ' :: (Keyword.null.sql.toList ++ rest))) := by
    simp [Keyword.sql]
  rw [htext]
  apply scan_test hf
  rw [Sql.tokens_space, Sql.tokens_keyword next .is (by simp), Sql.tokens_space,
    Sql.tokens_keyword next .not (by simp), Sql.tokens_space,
    Sql.tokens_keyword next .null hr.endsWord]
  rfl

theorem isReadAs_compare (hf : field.Readable) (comparison : Comparison) :
    IsReadAs (field.sql ++ " " ++ comparison.sql ++ " ?") next 1
      [.test (.compare field comparison (.parameter next))] := by
  intro rest _
  have htext : (field.sql ++ " " ++ comparison.sql ++ " ?").toList ++ rest =
      field.sql.toList ++ ' ' :: (comparison.sql.toList ++ ' ' :: '?' :: rest) := by
    simp
  rw [htext]
  apply scan_test hf
  rw [Sql.tokens_space, Sql.tokens_comparison, Sql.tokens_placeholder]
  rfl

theorem isReadAs_compare_empty (hf : field.Readable) (comparison : Comparison) :
    IsReadAs (field.sql ++ " " ++ comparison.sql ++ " ''") next 0
      [.test (.compare field comparison .emptyText)] := by
  intro rest hr
  have htext : (field.sql ++ " " ++ comparison.sql ++ " ''").toList ++ rest =
      field.sql.toList ++
        ' ' :: (comparison.sql.toList ++ ' ' :: '\'' :: ([] ++ '\'' :: rest)) := by
    simp
  rw [htext]
  apply scan_test hf
  rw [Sql.tokens_space, Sql.tokens_comparison,
    Sql.tokens_literal next List.not_mem_nil hr.head?_ne]
  rfl

theorem isReadAs_like (hf : field.Readable) :
    IsReadAs (field.sql ++ " LIKE ?") next 1 [.test (.like field (.parameter next))] := by
  intro rest _
  have htext : (field.sql ++ " LIKE ?").toList ++ rest =
      field.sql.toList ++ ' ' :: (Keyword.like.sql.toList ++ ' ' :: '?' :: rest) := by
    simp [Keyword.sql]
  rw [htext]
  apply scan_test hf
  rw [Sql.tokens_space, Sql.tokens_keyword next .like (by simp), Sql.tokens_space,
    Sql.tokens_placeholder]
  rfl

theorem parameters_succ (index count : Nat) :
    parameters index (count + 1) = .parameter index :: parameters (index + 1) count := by
  simp [parameters, List.range_succ_eq_map, Function.comp_def, Nat.add_assoc, Nat.add_comm 1]

theorem operands?_placeholders (next count : Nat) (rest : List Char) :
    operands? (Sql.tokens next ((placeholders (count + 1)).toList ++ ')' :: rest)) =
      some (parameters next (count + 1), Sql.tokens (next + (count + 1)) rest) := by
  induction count generalizing next with
  | zero =>
    rw [show (placeholders 1).toList ++ ')' :: rest = '?' :: ')' :: rest from rfl,
      Sql.tokens_placeholder, Sql.tokens_closing]
    rfl
  | succ count ih =>
    have htext : (placeholders (count + 2)).toList ++ ')' :: rest =
        '?' :: ',' :: ' ' :: ((placeholders (count + 1)).toList ++ ')' :: rest) := by
      simp [placeholders, List.replicate_succ, joined]
    rw [htext, Sql.tokens_placeholder, Sql.tokens_comma, Sql.tokens_space, operands?, ih,
      parameters_succ next]
    simp [Sql.operand?, Nat.add_assoc, Nat.add_comm 1]

theorem isReadAs_oneOf (hf : field.Readable) (count : Nat) :
    IsReadAs (field.sql ++ " IN (" ++ placeholders (count + 1) ++ ")") next (count + 1)
      [.test (.within field (parameters next (count + 1)))] := by
  intro rest _
  have htext : (field.sql ++ " IN (" ++ placeholders (count + 1) ++ ")").toList ++ rest =
      field.sql.toList ++ ' ' :: (Keyword.among.sql.toList ++
        ' ' :: '(' :: ((placeholders (count + 1)).toList ++ ')' :: rest)) := by
    simp [Keyword.sql]
  rw [htext]
  apply scan_test hf
  rw [Sql.tokens_space, Sql.tokens_keyword next .among (by simp), Sql.tokens_space,
    Sql.tokens_opening, test?, operands?_placeholders]
  rfl

theorem isReadAs_noneOf (hf : field.Readable) (count : Nat) :
    IsReadAs (field.sql ++ " NOT IN (" ++ placeholders (count + 1) ++ ")") next (count + 1)
      [.test (.not (.within field (parameters next (count + 1))))] := by
  intro rest _
  have htext : (field.sql ++ " NOT IN (" ++ placeholders (count + 1) ++ ")").toList ++ rest =
      field.sql.toList ++ ' ' :: (Keyword.not.sql.toList ++ ' ' :: (Keyword.among.sql.toList ++
        ' ' :: '(' :: ((placeholders (count + 1)).toList ++ ')' :: rest))) := by
    simp [Keyword.sql]
  rw [htext]
  apply scan_test hf
  rw [Sql.tokens_space, Sql.tokens_keyword next .not (by simp), Sql.tokens_space,
    Sql.tokens_keyword next .among (by simp), Sql.tokens_space, Sql.tokens_opening, test?,
    operands?_placeholders]
  rfl

theorem isReadAs_known (text right : String) (ht : text.toList = '1' :: '=' :: right.toList)
    (hr : right ∈ Sql.digits) : IsReadAs text next 0 [.test (.known ("1" = right))] := by
  intro rest hf
  have hword : right.toList ≠ [] ∧ (∀ c ∈ right.toList, isWordChar c = true) ∧
      ¬ IsKeyword right :=
    (by decide : ∀ digit ∈ Sql.digits, digit.toList ≠ [] ∧
      (∀ c ∈ digit.toList, isWordChar c = true) ∧ ¬ IsKeyword digit) right hr
  have htokens : Sql.tokens next (text.toList ++ rest) =
      .word "1" :: .comparison .equal :: .word right :: Sql.tokens next rest := by
    rw [ht, show '1' :: '=' :: right.toList ++ rest = "1".toList ++ '=' :: (right.toList ++ rest)
        from rfl,
      Sql.tokens_word next (by decide) (by decide) (by simp; decide), String.ofList_toList,
      Sql.wordToken_of_not_isKeyword (by decide),
      Sql.tokens_comparison_cons next (by decide) (by decide) (by rfl),
      IsColumn.tokens ⟨hword.1, hword.2.1⟩ hword.2.2 hf.endsWord]
  unfold scan
  have hatom : atom? (.word "1" :: .comparison .equal :: .word right :: Sql.tokens next rest) =
      some (.known ("1" = right), Sql.tokens next rest) := by
    have hone : "1" ∈ Sql.digits := by decide
    simp [atom?, hr, hone]
  rw [htokens, Sql.pieces?_word hatom]
  rfl

end

-- ---------------------------------------------------------------------------
-- Connectives and parentheses
-- ---------------------------------------------------------------------------

/-- A connective as it is written, and the piece that it is read as. -/
def IsConnective (text : String) (piece : Piece) : Prop :=
  ∀ next rest, Follows (text.toList ++ rest) ∧
    scan next (text.toList ++ rest) = (scan next rest).map (piece :: ·)

theorem isConnective_and : IsConnective " AND " .and := by
  intro next rest
  refine ⟨by simp [Follows], ?_⟩
  unfold scan
  rw [show " AND ".toList ++ rest = ' ' :: (Keyword.and.sql.toList ++ ' ' :: rest) from rfl,
    Sql.tokens_space, Sql.tokens_keyword next .and (by simp), Sql.tokens_space, Sql.pieces?_and]

theorem isConnective_or : IsConnective " OR " .or := by
  intro next rest
  refine ⟨by simp [Follows], ?_⟩
  unfold scan
  rw [show " OR ".toList ++ rest = ' ' :: (Keyword.or.sql.toList ++ ' ' :: rest) from rfl,
    Sql.tokens_space, Sql.tokens_keyword next .or (by simp), Sql.tokens_space, Sql.pieces?_or]

section
variable {left right text connective : String} {next m n : Nat} {pieces others : List Piece}

theorem IsReadAs.connected {piece : Piece} (hl : IsReadAs left next m pieces)
    (hc : IsConnective connective piece) (hr : IsReadAs right (next + m) n others) :
    IsReadAs (left ++ connective ++ right) next (m + n) (pieces ++ piece :: others) := by
  intro rest hf
  obtain ⟨hfollows, hscan⟩ := hc (next + m) (right.toList ++ rest)
  have htext : (left ++ connective ++ right).toList ++ rest =
      left.toList ++ (connective.toList ++ (right.toList ++ rest)) := by
    simp
  rw [htext, hl _ hfollows, hscan, hr rest hf, Nat.add_assoc]
  simp [Option.map_map, Function.comp_def]

theorem IsReadAs.enclosed (h : IsReadAs text next n pieces) :
    IsReadAs ("(" ++ text ++ ")") next n (.opening :: pieces ++ [.closing]) := by
  intro rest _
  have htext : ("(" ++ text ++ ")").toList ++ rest = '(' :: (text.toList ++ ')' :: rest) := by
    simp
  have hclosing : scan (next + n) (')' :: rest) = (scan (next + n) rest).map (.closing :: ·) := by
    simp [scan]
  have hopening : scan next ('(' :: (text.toList ++ ')' :: rest)) =
      (scan next (text.toList ++ ')' :: rest)).map (.opening :: ·) := by
    simp [scan]
  rw [htext, hopening, h _ (by simp [Follows]), hclosing]
  simp [Option.map_map, Function.comp_def]

end

def joinedPieces (connective : Piece) (index : Nat) : List Fragment → List Piece
  | [] => []
  | [fragment] => fragment.pieces index
  | fragment :: rest =>
    fragment.pieces index ++
      connective :: joinedPieces connective (index + fragment.params.length) rest

theorem isReadAs_joined {connective : String} {piece : Piece}
    (hc : IsConnective connective piece) (fragments : List Fragment) (hne : fragments ≠ [])
    (h : ∀ fragment ∈ fragments, ∀ next,
      IsReadAs fragment.sql next fragment.params.length (fragment.pieces next)) (next : Nat) :
    IsReadAs (joined connective (fragments.map Fragment.sql)) next
      (fragments.flatMap Fragment.params).length (joinedPieces piece next fragments) := by
  induction fragments generalizing next with
  | nil => exact absurd rfl hne
  | cons fragment fragments ih =>
    have hf := h fragment List.mem_cons_self next
    cases fragments with
    | nil => simpa [joined, joinedPieces] using hf
    | cons other fragments =>
      have ho := ih (List.cons_ne_nil _ _) (fun f hm => h f (List.mem_cons_of_mem _ hm))
        (next + fragment.params.length)
      have hj := hf.connected hc ho
      rw [List.flatMap_cons, List.length_append]
      exact hj

theorem joinedPieces_contains (field : Field) (index : Nat) (texts : List String) :
    joinedPieces .and index (texts.map (.contains field)) =
      chained .and ((parameters index texts.length).map (.like field)) := by
  induction texts generalizing index with
  | nil => rfl
  | cons text texts ih =>
    cases texts with
    | nil => simp [joinedPieces, Fragment.pieces, chained, parts, parameters]
    | cons other texts =>
      have hstep : joinedPieces .and index ((text :: other :: texts).map (.contains field)) =
          [.test (.like field (.parameter index))] ++ .and ::
            joinedPieces .and (index + 1) ((other :: texts).map (.contains field)) := rfl
      rw [hstep, ih]
      simp only [List.length_cons, parameters_succ]
      rfl

/-- A fragment is read as its pieces, and its placeholders take as many numbers as it has
parameters. -/
theorem Fragment.isReadAs {fragment : Fragment} (hf : fragment.Readable) (next : Nat) :
    IsReadAs fragment.sql next fragment.params.length (fragment.pieces next) := by
  cases fragment with
  | isNull field => exact isReadAs_isNull next hf
  | isNotNull field => exact isReadAs_isNotNull next hf
  | compare field comparison operand => exact isReadAs_compare next hf comparison
  | contains field text => exact isReadAs_like next hf
  | containsAll field texts =>
    cases texts with
    | nil => exact isReadAs_known next "1=1" "1" (by decide) (by decide)
    | cons text texts =>
      -- The terms are read like as many fragments of one term.
      have hj := isReadAs_joined isConnective_and ((text :: texts).map (.contains field))
        (by simp) (fun fragment hm next => by
          obtain ⟨text, _, rfl⟩ := List.mem_map.mp hm
          exact isReadAs_like next hf) next
      have hp := joinedPieces_contains field next (text :: texts)
      rw [hp] at hj
      have hparams : ((text :: texts).map (.contains field)).flatMap params =
          (containsAll field (text :: texts)).params := by
        rw [List.flatMap_map]
        exact (List.map_eq_flatMap).symm
      rw [hparams] at hj
      simpa [sql, pieces, Function.comp_def] using hj.enclosed
  | oneOf field values =>
    cases values with
    | nil => exact isReadAs_known next "1=0" "0" (by decide) (by decide)
    | cons value values => exact isReadAs_oneOf next hf values.length
  | noneOf field values =>
    cases values with
    | nil => exact isReadAs_known next "1=1" "1" (by decide) (by decide)
    | cons value values => exact isReadAs_noneOf next hf values.length
  | filled field =>
    have h := (isReadAs_isNotNull next hf).connected isConnective_and
      (isReadAs_compare_empty next hf .notEqual)
    have ht : (filled field).sql = field.sql ++ " IS NOT NULL" ++ " AND " ++
        (field.sql ++ " " ++ Comparison.notEqual.sql ++ " ''") := by
      apply String.toList_injective
      simp [sql, Comparison.sql]
    rw [ht]
    exact h
  | unfilled field =>
    have h := ((isReadAs_isNull next hf).connected isConnective_or
      (isReadAs_compare_empty next hf .equal)).enclosed
    have ht : (unfilled field).sql = "(" ++ (field.sql ++ " IS NULL" ++ " OR " ++
        (field.sql ++ " " ++ Comparison.equal.sql ++ " ''")) ++ ")" := by
      apply String.toList_injective
      simp [sql, Comparison.sql]
    rw [ht]
    exact h

end Folio.Query
