import Folio.Proofs.Query.Clean
import Folio.Text.Alphanumeric

/-!
# The language of statements

Untrusted text gives a statement its table, its fields and its operands. Whatever it
is, the statement is a word of a fixed grammar, in which outside text stands in three
places only: as a table, as a column and behind `$.` in a path.

`Tame` texts are those in which nothing can be smuggled: parentheses close, quotes hold
nothing or a path, and no other mark stands out. Every word of the grammar is tame.
-/

namespace Folio.Query

open Database (isWordChar)

-- ---------------------------------------------------------------------------
-- The grammar
-- ---------------------------------------------------------------------------

inductive IsField : String → Prop
  | column {name : String} : IsColumn name → IsField name
  | path {base steps : String} : IsColumn base → (∀ c ∈ steps.toList, isNameChar c = true) →
      IsField ("json_extract(" ++ base ++ ", '$." ++ steps ++ "')")

/-- One part, or several with a separator between each two. -/
inductive IsJoined (separator : String) (IsPart : String → Prop) : String → Prop
  | one {part : String} : IsPart part → IsJoined separator IsPart part
  | more {part rest : String} : IsPart part → IsJoined separator IsPart rest →
      IsJoined separator IsPart (part ++ separator ++ rest)

def comparisonMarks : List String :=
  ["=", "!=", ">", ">=", "<", "<="]

inductive IsFragment : String → Prop
  | isNull {field : String} : IsField field → IsFragment (field ++ " IS NULL")
  | isNotNull {field : String} : IsField field → IsFragment (field ++ " IS NOT NULL")
  | compare {field mark : String} : IsField field → mark ∈ comparisonMarks →
      IsFragment (field ++ " " ++ mark ++ " ?")
  | contains {field : String} : IsField field → IsFragment (field ++ " LIKE ?")
  | always : IsFragment "1=1"
  | never : IsFragment "1=0"
  | containsAll {field tests : String} : IsField field →
      IsJoined " AND " (· = field ++ " LIKE ?") tests → IsFragment ("(" ++ tests ++ ")")
  | oneOf {field values : String} : IsField field → IsJoined ", " (· = "?") values →
      IsFragment (field ++ " IN (" ++ values ++ ")")
  | noneOf {field values : String} : IsField field → IsJoined ", " (· = "?") values →
      IsFragment (field ++ " NOT IN (" ++ values ++ ")")
  | filled {field : String} : IsField field →
      IsFragment (field ++ " IS NOT NULL AND " ++ field ++ " != ''")
  | unfilled {field : String} : IsField field →
      IsFragment ("(" ++ field ++ " IS NULL OR " ++ field ++ " = '')")

inductive IsGroup (connective : String) : String → Prop
  | mk {fragments : String} : IsJoined connective IsFragment fragments →
      IsGroup connective ("(" ++ fragments ++ ")")

inductive IsConditions : String → Prop
  | none : IsConditions ""
  | all {group : String} : IsGroup " AND " group → IsConditions (" WHERE " ++ group)
  | any {group : String} : IsGroup " OR " group → IsConditions (" WHERE " ++ group)
  | both {all any : String} : IsGroup " AND " all → IsGroup " OR " any →
      IsConditions (" WHERE " ++ all ++ " AND " ++ any)

inductive IsOrderTerm : String → Prop
  | ascending {field : String} : IsField field → IsOrderTerm (field ++ " ASC")
  | descending {field : String} : IsField field → IsOrderTerm (field ++ " DESC")

inductive IsOrder : String → Prop
  | none : IsOrder ""
  | terms {terms : String} : IsJoined ", " IsOrderTerm terms → IsOrder (" ORDER BY " ++ terms)

inductive IsStatement : String → Prop
  | mk {table conditions order limit offset : String} :
      (∀ c ∈ table.toList, isNameChar c = true) → IsConditions conditions → IsOrder order →
      limit ∈ ["", " LIMIT ?"] → offset ∈ ["", " OFFSET ?"] →
      IsStatement ("SELECT * FROM " ++ table ++ conditions ++ order ++ limit ++ offset)

-- ---------------------------------------------------------------------------
-- Statements are words of the grammar
-- ---------------------------------------------------------------------------

theorem isJoined_joined {ι : Type} {separator : String} {IsPart : String → Prop} {items : List ι}
    {text : ι → String} (hne : items ≠ []) (h : ∀ item ∈ items, IsPart (text item)) :
    IsJoined separator IsPart (joined separator (items.map text)) := by
  induction items with
  | nil => exact absurd rfl hne
  | cons item items ih =>
    have hi := h item List.mem_cons_self
    cases items with
    | nil => exact .one hi
    | cons next items =>
      exact .more hi (ih (List.cons_ne_nil next items) fun other ho =>
        h other (List.mem_cons_of_mem item ho))

theorem isJoined_placeholders {count : Nat} (h : count ≠ 0) :
    IsJoined ", " (· = "?") (placeholders count) := by
  have hj : IsJoined ", " (· = "?") (joined ", " ((List.replicate count ()).map fun _ => "?")) :=
    isJoined_joined (by simpa using h) fun _ _ => rfl
  simpa [placeholders] using hj

theorem Field.Clean.isField {field : Field} (h : field.Clean) : IsField field.sql := by
  cases field with
  | column name => exact .column h
  | path base steps => exact .path h.1 h.2

theorem isFragment_sql {fragment : Fragment} (h : fragment.field.Clean) :
    IsFragment fragment.sql := by
  have hf := h.isField
  cases fragment with
  | isNull field => exact .isNull hf
  | isNotNull field => exact .isNotNull hf
  | compare field comparison operand =>
    exact .compare hf (by cases comparison <;> decide)
  | contains field text => exact .contains hf
  | containsAll field texts =>
    cases texts with
    | nil => exact .always
    | cons first rest =>
      exact .containsAll hf (isJoined_joined (List.cons_ne_nil first rest) fun _ _ => rfl)
  | oneOf field values =>
    cases values with
    | nil => exact .never
    | cons first rest => exact .oneOf hf (isJoined_placeholders (Nat.succ_ne_zero _))
  | noneOf field values =>
    cases values with
    | nil => exact .always
    | cons first rest => exact .noneOf hf (isJoined_placeholders (Nat.succ_ne_zero _))
  | filled field => exact .filled hf
  | unfilled field => exact .unfilled hf

theorem isGroup_joined (connective : String) {fragments : List Fragment} (hne : fragments ≠ [])
    (h : ∀ fragment ∈ fragments, fragment.field.Clean) :
    IsGroup connective ("(" ++ joined connective (fragments.map Fragment.sql) ++ ")") :=
  .mk (isJoined_joined hne fun fragment hm => isFragment_sql (h fragment hm))

theorem Statement.Clean.isConditions {statement : Statement} (h : statement.Clean) :
    IsConditions (clauseSql " WHERE " " AND " statement.groups) := by
  obtain ⟨table, conjuncts, disjuncts, order, limit, offset⟩ := statement
  cases conjuncts with
  | nil =>
    cases disjuncts with
    | nil => exact .none
    | cons first rest => exact .any (isGroup_joined _ (List.cons_ne_nil first rest) h.disjuncts)
  | cons first rest =>
    have hall := isGroup_joined " AND " (List.cons_ne_nil first rest) h.conjuncts
    cases disjuncts with
    | nil => exact .all hall
    | cons other others =>
      have hboth := IsConditions.both hall
        (isGroup_joined _ (List.cons_ne_nil other others) h.disjuncts)
      simpa [clauseSql, groups, grouped, joined, String.append_assoc] using hboth

theorem Statement.Clean.isOrder {statement : Statement} (h : statement.Clean) :
    IsOrder (clauseSql " ORDER BY " ", " (statement.order.map OrderTerm.sql)) := by
  have hterm : ∀ term ∈ statement.order, IsOrderTerm term.sql := by
    rintro ⟨field, direction⟩ hm
    have hf := (h.order _ hm).isField
    cases direction with
    | ascending => simpa [OrderTerm.sql, Direction.sql, String.append_assoc] using
        IsOrderTerm.ascending hf
    | descending => simpa [OrderTerm.sql, Direction.sql, String.append_assoc] using
        IsOrderTerm.descending hf
  cases ho : statement.order with
  | nil => exact .none
  | cons first rest =>
    rw [ho] at hterm
    exact .terms (isJoined_joined (List.cons_ne_nil first rest) hterm)

theorem Statement.Clean.isStatement {statement : Statement} (h : statement.Clean) :
    IsStatement statement.sql :=
  .mk h.table h.isConditions h.isOrder (by split <;> decide) (by split <;> decide)

-- ---------------------------------------------------------------------------
-- Tame texts
-- ---------------------------------------------------------------------------

/-- Whether every parenthesis closes one that is open, with `depth` of them open before. -/
def closes : Nat → List Char → Bool
  | depth, [] => depth = 0
  | depth, '(' :: rest => closes (depth + 1) rest
  | 0, ')' :: _ => false
  | depth + 1, ')' :: rest => closes depth rest
  | depth, _ :: rest => closes depth rest

/-- The literals of a text, or nothing when one does not end. `inside` is what has been read
of an open literal. Within a literal a quote is written twice. -/
def literals : Option (List Char) → List Char → Option (List (List Char))
  | none, [] => some []
  | some _, [] => none
  | none, c :: rest => literals (if c = '\'' then some [] else none) rest
  | some read, '\'' :: '\'' :: rest => literals (some (read ++ ['\''])) rest
  | some read, '\'' :: rest => (literals none rest).map (read :: ·)
  | some read, c :: rest => literals (some (read ++ [c])) rest

/-- What may stand between quotes: nothing, or a path into a document. -/
def IsLiteral (text : List Char) : Prop :=
  text = [] ∨ ∃ path, (∀ c ∈ path, isNameChar c = true) ∧ text = '$' :: '.' :: path

def isPlainMark (c : Char) : Bool :=
  isNameChar c || [' ', '*', ',', '?', '=', '!', '<', '>'].contains c

inductive Tame : List Char → Prop
  | plain {text : List Char} : (∀ c ∈ text, isPlainMark c = true) → Tame text
  | quoted {text literal : List Char} : text ≠ [] → (∀ c ∈ text, isPlainMark c = true) →
      IsLiteral literal → Tame (text ++ '\'' :: literal ++ ['\''])
  | enclosed {text : List Char} : Tame text → Tame ('(' :: text ++ [')'])
  | append {first second : List Char} : Tame first → Tame second → Tame (first ++ second)

theorem isPlainMark_of_isNameChar {c : Char} (h : isNameChar c = true) : isPlainMark c = true := by
  simp [isPlainMark, h]

theorem IsLiteral.isNameChar {text : List Char} (h : IsLiteral text) :
    ∀ c ∈ text, isNameChar c = true := by
  rcases h with rfl | ⟨path, hp, rfl⟩
  · simp
  · intro c hc
    simp only [List.mem_cons] at hc
    rcases hc with rfl | rfl | hc
    · decide
    · decide
    · exact hp c hc

theorem quote_notMem_of_isPlainMark {text : List Char} (h : ∀ c ∈ text, isPlainMark c = true) :
    '\'' ∉ text :=
  fun hm => absurd (h _ hm) (by decide)

-- ---------------------------------------------------------------------------
-- What tame texts are safe from
-- ---------------------------------------------------------------------------

/-- The characters of tame texts are printable ASCII, and none of them ends a statement,
begins a comment, quotes a name or escapes. -/
theorem Tame.mem {text : List Char} (h : Tame text) :
    ∀ c ∈ text, isPlainMark c = true ∨ c = '\'' ∨ c = '(' ∨ c = ')' := by
  induction h with
  | plain h => exact fun c hc => .inl (h c hc)
  | quoted _ h hl =>
    intro c hc
    simp only [List.append_assoc, List.cons_append, List.mem_append, List.mem_cons,
      List.not_mem_nil, or_false] at hc
    rcases hc with hc | rfl | hc | rfl
    · exact .inl (h c hc)
    · exact .inr (.inl rfl)
    · exact .inl (isPlainMark_of_isNameChar (hl.isNameChar c hc))
    · exact .inr (.inl rfl)
  | enclosed _ ih =>
    intro c hc
    simp only [List.cons_append, List.mem_cons, List.mem_append, List.not_mem_nil, or_false] at hc
    rcases hc with rfl | hc | rfl
    · exact .inr (.inr (.inl rfl))
    · exact ih c hc
    · exact .inr (.inr (.inr rfl))
  | append _ _ ih ih' =>
    intro c hc
    rcases List.mem_append.mp hc with hc | hc
    · exact ih c hc
    · exact ih' c hc

theorem closes_append_of_ne {text : List Char} (h : ∀ c ∈ text, c ≠ '(' ∧ c ≠ ')')
    (depth : Nat) (rest : List Char) : closes depth (text ++ rest) = closes depth rest := by
  induction text with
  | nil => rfl
  | cons c text ih =>
    obtain ⟨hc, ht⟩ := List.forall_mem_cons.mp h
    rw [List.cons_append, closes, ih ht] <;> simp_all

theorem Tame.closes_append {text : List Char} (h : Tame text) (depth : Nat) (rest : List Char) :
    closes depth (text ++ rest) = closes depth rest := by
  induction h generalizing depth rest with
  | plain h =>
    refine closes_append_of_ne (fun c hc => ?_) depth rest
    constructor <;> rintro rfl <;> exact absurd (h _ hc) (by decide)
  | @quoted text literal _ h hl =>
    refine closes_append_of_ne (fun c hc => ?_) depth rest
    simp only [List.append_assoc, List.cons_append, List.mem_append, List.mem_cons,
      List.not_mem_nil, or_false] at hc
    rcases hc with hc | rfl | hc | rfl
    · constructor <;> rintro rfl <;> exact absurd (h _ hc) (by decide)
    · decide
    · constructor <;> rintro rfl <;> exact absurd (hl.isNameChar _ hc) (by decide)
    · decide
  | enclosed _ ih =>
    simp [closes, ih]
  | append _ _ ih ih' => rw [List.append_assoc, ih, ih']

theorem Tame.head?_ne_quote {text : List Char} (h : Tame text) : text.head? ≠ some '\'' := by
  induction h with
  | plain h =>
    intro hq
    exact quote_notMem_of_isPlainMark h (List.mem_of_head? hq)
  | @quoted text _ hne h _ =>
    intro hq
    obtain ⟨c, rest, rfl⟩ := List.exists_cons_of_ne_nil hne
    cases hq
    exact quote_notMem_of_isPlainMark h List.mem_cons_self
  | enclosed => simp
  | @append first second _ _ ih ih' =>
    cases first with
    | nil => exact ih'
    | cons c rest => exact ih

theorem literals_append_of_notMem {text : List Char} (h : '\'' ∉ text) (rest : List Char) :
    literals none (text ++ rest) = literals none rest := by
  induction text with
  | nil => rfl
  | cons c text ih =>
    rw [List.mem_cons, not_or] at h
    rw [List.cons_append, literals, if_neg (Ne.symm h.1), ih h.2]

theorem literals_inside {text rest : List Char} (h : '\'' ∉ text)
    (hr : rest.head? ≠ some '\'') (read : List Char) :
    literals (some read) (text ++ '\'' :: rest) =
      (literals none rest).map ((read ++ text) :: ·) := by
  induction text generalizing read with
  | nil =>
    rw [List.nil_append, literals, List.append_nil]
    rintro more rfl
    exact hr rfl
  | cons c text ih =>
    rw [List.mem_cons, not_or] at h
    rw [List.cons_append, literals, ih h.2, List.append_assoc, List.singleton_append]
    · rintro more rfl
      exact absurd rfl h.1
    · rintro rfl
      exact absurd rfl h.1

/-- The literals of a tame text end in it and hold nothing or a path. -/
theorem Tame.literals_append {text : List Char} (h : Tame text) :
    ∃ found, (∀ literal ∈ found, IsLiteral literal) ∧
      ∀ rest, rest.head? ≠ some '\'' →
        literals none (text ++ rest) = (literals none rest).map (found ++ ·) := by
  induction h with
  | plain h =>
    refine ⟨[], by simp, fun rest _ => ?_⟩
    simp [literals_append_of_notMem (quote_notMem_of_isPlainMark h)]
  | @quoted text literal _ h hl =>
    refine ⟨[literal], by simpa using hl, fun rest hr => ?_⟩
    have hn : '\'' ∉ literal := fun hm => absurd (hl.isNameChar _ hm) (by decide)
    calc literals none (text ++ '\'' :: literal ++ ['\''] ++ rest)
      _ = literals none (text ++ '\'' :: (literal ++ '\'' :: rest)) := by simp
      _ = literals (some []) (literal ++ '\'' :: rest) := by
        rw [literals_append_of_notMem (quote_notMem_of_isPlainMark h), literals, if_pos rfl]
      _ = (literals none rest).map ([literal] ++ ·) := literals_inside hn hr []
  | @enclosed text ht ih =>
    obtain ⟨found, hf, hl⟩ := ih
    refine ⟨found, hf, fun rest _ => ?_⟩
    calc literals none ('(' :: text ++ [')'] ++ rest)
      _ = literals none (text ++ ')' :: rest) := by simp [literals]
      _ = (literals none rest).map (found ++ ·) := by
        rw [hl _ (by simp), literals, if_neg (by decide)]
  | @append first second _ hs ih ih' =>
    obtain ⟨found, hf, hl⟩ := ih
    obtain ⟨found', hf', hl'⟩ := ih'
    refine ⟨found ++ found', fun literal hm => (List.mem_append.mp hm).elim (hf _) (hf' _),
      fun rest hr => ?_⟩
    have hhead : (second ++ rest).head? ≠ some '\'' := by
      have hs := hs.head?_ne_quote
      cases second with
      | nil => exact hr
      | cons c second => exact hs
    rw [List.append_assoc, hl _ hhead, hl' _ hr, Option.map_map]
    simp [Function.comp_def]

-- ---------------------------------------------------------------------------
-- The words of the grammar are tame
-- ---------------------------------------------------------------------------

theorem Tame.of_isNameChar {text : List Char} (h : ∀ c ∈ text, isNameChar c = true) : Tame text :=
  .plain fun c hc => isPlainMark_of_isNameChar (h c hc)

theorem IsColumn.tame {name : String} (h : IsColumn name) : Tame name.toList :=
  .of_isNameChar fun c hc => isNameChar_of_isWordChar (h.2 c hc)

theorem IsField.tame {field : String} (h : IsField field) : Tame field.toList := by
  cases h with
  | column h => exact h.tame
  | @path base steps hb hs =>
    have hlead : ∀ c ∈ base.toList ++ [',', ' '], isPlainMark c = true := by
      intro c hc
      rcases List.mem_append.mp hc with hc | hc
      · exact isPlainMark_of_isNameChar (isNameChar_of_isWordChar (hb.2 c hc))
      · exact (by decide : ∀ c ∈ [',', ' '], isPlainMark c = true) c hc
    have hcall : Tame "json_extract".toList := .plain (by decide)
    have h := hcall.append (.enclosed (.quoted (by simp) hlead (.inr ⟨steps.toList, hs, rfl⟩)))
    simpa using h

theorem IsField.tame_append {field : String} (h : IsField field) (text : String)
    (ht : ∀ c ∈ text.toList, isPlainMark c = true) : Tame (field ++ text).toList := by
  simpa using h.tame.append (.plain ht)

theorem IsJoined.tame {separator : String} (hs : ∀ c ∈ separator.toList, isPlainMark c = true)
    {IsPart : String → Prop} (hp : ∀ {part}, IsPart part → Tame part.toList) {text : String}
    (h : IsJoined separator IsPart text) : Tame text.toList := by
  induction h with
  | one h => exact hp h
  | more h _ ih => simpa using (hp h).append ((Tame.plain hs).append ih)

theorem Tame.emptyText (text : String) (hne : text.toList ≠ [])
    (h : ∀ c ∈ text.toList, isPlainMark c = true) : Tame (text ++ "''").toList := by
  simpa using Tame.quoted hne h (.inl rfl)

theorem IsFragment.tame {fragment : String} (h : IsFragment fragment) : Tame fragment.toList := by
  cases h with
  | isNull h => exact h.tame_append _ (by decide)
  | isNotNull h => exact h.tame_append _ (by decide)
  | @compare field mark h hm =>
    have hmark : ∀ mark ∈ comparisonMarks, ∀ c ∈ mark.toList, isPlainMark c = true := by decide
    have ht : Tame (" " ++ mark ++ " ?").toList := by
      refine .plain fun c hc => ?_
      simp only [String.toList_append, List.mem_append] at hc
      rcases hc with (hc | hc) | hc
      · exact (by decide : ∀ c ∈ " ".toList, isPlainMark c = true) c hc
      · exact hmark mark hm c hc
      · exact (by decide : ∀ c ∈ " ?".toList, isPlainMark c = true) c hc
    simpa using h.tame.append ht
  | contains h => exact h.tame_append _ (by decide)
  | always => exact .plain (by decide)
  | never => exact .plain (by decide)
  | containsAll h hj =>
    have ht := hj.tame (by decide) (by rintro part rfl; exact h.tame_append _ (by decide))
    simpa using ht.enclosed
  | oneOf h hj =>
    have ht := hj.tame (by decide) (by rintro part rfl; exact .plain (by decide))
    simpa using (h.tame_append " IN " (by decide)).append ht.enclosed
  | noneOf h hj =>
    have ht := hj.tame (by decide) (by rintro part rfl; exact .plain (by decide))
    simpa using (h.tame_append " NOT IN " (by decide)).append ht.enclosed
  | filled h =>
    have ht := Tame.emptyText " != " (by decide) (by decide)
    simpa using (h.tame_append " IS NOT NULL AND " (by decide)).append (h.tame.append ht)
  | unfilled h =>
    have ht := Tame.emptyText " = " (by decide) (by decide)
    have hi := (h.tame_append " IS NULL OR " (by decide)).append (h.tame.append ht)
    simpa using hi.enclosed

theorem IsGroup.tame {connective group : String}
    (hc : ∀ c ∈ connective.toList, isPlainMark c = true) (h : IsGroup connective group) :
    Tame group.toList := by
  cases h with
  | mk hj => simpa using (hj.tame hc IsFragment.tame).enclosed

theorem IsConditions.tame {conditions : String} (h : IsConditions conditions) :
    Tame conditions.toList := by
  have hw : Tame " WHERE ".toList := .plain (by decide)
  cases h with
  | none => exact .plain (by decide)
  | all h => simpa using hw.append (h.tame (by decide))
  | any h => simpa using hw.append (h.tame (by decide))
  | both h h' =>
    have ha : Tame " AND ".toList := .plain (by decide)
    simpa using hw.append ((h.tame (by decide)).append (ha.append (h'.tame (by decide))))

theorem IsOrder.tame {order : String} (h : IsOrder order) : Tame order.toList := by
  cases h with
  | none => exact .plain (by decide)
  | terms hj =>
    have ht := hj.tame (by decide) fun hp => by
      cases hp with
      | ascending h => exact h.tame_append _ (by decide)
      | descending h => exact h.tame_append _ (by decide)
    have ho : Tame " ORDER BY ".toList := .plain (by decide)
    simpa using ho.append ht

theorem IsStatement.tame {sql : String} (h : IsStatement sql) : Tame sql.toList := by
  cases h with
  | @mk table conditions order limit offset ht hw ho hl hf =>
    have hs : Tame "SELECT * FROM ".toList := .plain (by decide)
    have hpage : Tame (limit ++ offset).toList := by
      simp only [List.mem_cons, List.not_mem_nil, or_false] at hl hf
      rcases hl with rfl | rfl <;> rcases hf with rfl | rfl <;> exact .plain (by decide)
    have hall := hs.append ((Tame.of_isNameChar ht).append (hw.tame.append (ho.tame.append hpage)))
    simpa [List.append_assoc] using hall

-- ---------------------------------------------------------------------------
-- Nothing is injected
-- ---------------------------------------------------------------------------

/-- A printable character of ASCII that ends, quotes and escapes nothing. -/
def IsHarmless (c : Char) : Prop :=
  ' ' ≤ c ∧ c ≤ '~' ∧ c ≠ ';' ∧ c ≠ '"' ∧ c ≠ '\\'

instance (c : Char) : Decidable (IsHarmless c) := by
  unfold IsHarmless
  infer_instance

theorem isHarmless_of_isNameChar {c : Char} (h : isNameChar c = true) : IsHarmless c := by
  simp only [isNameChar, Bool.or_eq_true, decide_eq_true_eq, Text.isAlphanum_iff] at h
  rcases h with ((ha | rfl) | rfl) | rfl
  · have hle (d : Char) : d ≤ c ↔ d.toNat ≤ c.toNat := Iff.rfl
    have hge (d : Char) : c ≤ d ↔ c.toNat ≤ d.toNat := Iff.rfl
    have hne (d : Char) (hd : c.toNat ≠ d.toNat) : c ≠ d := fun he => hd (he ▸ rfl)
    refine ⟨(hle ' ').mpr ?_, (hge '~').mpr ?_, hne ';' ?_, hne '"' ?_, hne '\\' ?_⟩ <;>
      simp only [Char.reduceToNat] <;> omega
  · decide
  · decide
  · decide

theorem Tame.isHarmless {text : List Char} (h : Tame text) : ∀ c ∈ text, IsHarmless c := by
  intro c hc
  rcases h.mem c hc with hp | rfl | rfl | rfl
  · rcases (Bool.or_eq_true _ _).mp hp with hn | hm
    · exact isHarmless_of_isNameChar hn
    · have hall : ∀ c ∈ [' ', '*', ',', '?', '=', '!', '<', '>'], IsHarmless c := by decide
      exact hall c (List.contains_iff_mem.mp hm)
  · decide
  · decide
  · decide

/-- A comment needs a mark that no tame text has. -/
theorem Tame.no_comment {text : List Char} (h : Tame text) :
    ¬ ['-', '-'] <:+: text ∧ ¬ ['/', '*'] <:+: text := by
  have hd : '-' ∉ text := fun hm => absurd (h.mem _ hm) (by decide)
  have hs : '/' ∉ text := fun hm => absurd (h.mem _ hm) (by decide)
  exact ⟨fun hi => hd (hi.subset (by decide)), fun hi => hs (hi.subset (by decide))⟩

/-- Whatever a caller writes into a table, a filter and an order, the statement stays within
the grammar: parentheses and quotes close, and no mark gets in with which a reader could be
led out of it. -/
theorem Filter.sql_stays_in_grammar (filter : Filter) (table : String) :
    IsStatement (filter.compile table).sql ∧
      closes 0 (filter.compile table).sql.toList = true ∧
      (∃ found, literals none (filter.compile table).sql.toList = some found ∧
        ∀ literal ∈ found, IsLiteral literal) ∧
      (∀ c ∈ (filter.compile table).sql.toList, IsHarmless c) ∧
      ¬ ['-', '-'] <:+: (filter.compile table).sql.toList ∧
      ¬ ['/', '*'] <:+: (filter.compile table).sql.toList := by
  have hs : IsStatement (filter.compile table).sql := (filter.statement_clean table).isStatement
  have ht := hs.tame
  refine ⟨hs, ?_, ?_, ht.isHarmless, ht.no_comment⟩
  · simpa [closes] using ht.closes_append 0 []
  · obtain ⟨found, hf, hl⟩ := ht.literals_append
    exact ⟨found, by simpa [literals] using hl [] (by simp), hf⟩

end Folio.Query
