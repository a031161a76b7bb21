import Folio.Proofs.Query.Grammar
import Folio.Proofs.Query.Joined
import Folio.Proofs.Query.Placeholders

/-!
# The literals of a statement

Which literals a reader finds in a statement, one after the other: the paths into documents,
each where its field is mentioned, and the empty text where a field is asked whether it is
filled. `Quotes text found` carries this through the pieces from which a statement is put
together. No piece begins with a quote, so none can change where a literal in front of it
ends.
-/

namespace Folio.Query

/-- A reader who is outside of literals finds these in the text, and is outside again. -/
structure Quotes (text : String) (found : List (List Char)) : Prop where
  head : text.toList.head? ≠ some '\''
  read : ∀ rest, rest.head? ≠ some '\'' →
    literals none (text.toList ++ rest) = (literals none rest).map (found ++ ·)

section
variable {text more : String} {found others : List (List Char)}

theorem Quotes.literals (h : Quotes text found) : literals none text.toList = some found := by
  have hr := h.read [] (by simp)
  simpa [Query.literals] using hr

theorem quotes_plain (h : '\'' ∉ text.toList) : Quotes text [] where
  head hq := h (List.mem_of_head? hq)
  read rest _ := by simp [literals_append_of_notMem h]

theorem Quotes.append (h : Quotes text found) (hm : Quotes more others) :
    Quotes (text ++ more) (found ++ others) where
  head := by
    rw [String.toList_append]
    cases ht : text.toList with
    | nil => exact hm.head
    | cons c rest => simpa [ht] using h.head
  read rest hr := by
    have hhead : (more.toList ++ rest).head? ≠ some '\'' := by
      cases hl : more.toList with
      | nil => exact hr
      | cons c others => simpa [hl] using hm.head
    rw [String.toList_append, List.append_assoc, h.read _ hhead, hm.read rest hr, Option.map_map]
    simp [Function.comp_def]

theorem Quotes.append_plain (h : Quotes text found) (hm : '\'' ∉ more.toList) :
    Quotes (text ++ more) found := by
  simpa using h.append (quotes_plain hm)

theorem Quotes.plain_append (ht : '\'' ∉ text.toList) (h : Quotes more found) :
    Quotes (text ++ more) found :=
  (quotes_plain ht).append h

theorem quotes_literal {literal : String} (hne : text.toList ≠ []) (ht : '\'' ∉ text.toList)
    (hl : '\'' ∉ literal.toList) : Quotes (text ++ "'" ++ literal ++ "'") [literal.toList] where
  head := by
    obtain ⟨c, rest, hc⟩ := List.exists_cons_of_ne_nil hne
    simp only [hc, List.mem_cons, not_or] at ht
    simpa [hc] using Ne.symm ht.1
  read rest hr := by
    calc Query.literals none ((text ++ "'" ++ literal ++ "'").toList ++ rest)
      _ = Query.literals none (text.toList ++ '\'' :: (literal.toList ++ '\'' :: rest)) := by simp
      _ = Query.literals (some []) (literal.toList ++ '\'' :: rest) := by
        rw [literals_append_of_notMem ht, Query.literals, if_pos rfl]
      _ = (Query.literals none rest).map ([literal.toList] ++ ·) := literals_inside hl hr []

variable {ι : Type} {separator keyword : String} {items : List ι} {part : ι → String}
  {parts : ι → List (List Char)}

theorem quotes_joined (hs : '\'' ∉ separator.toList)
    (h : ∀ item ∈ items, Quotes (part item) (parts item)) :
    Quotes (joined separator (items.map part)) (items.flatMap parts) :=
  joined_adds_up (quotes_plain (by simp)) Quotes.append (quotes_plain hs) h

theorem quotes_clause (hk : '\'' ∉ keyword.toList) (hs : '\'' ∉ separator.toList)
    (h : ∀ item ∈ items, Quotes (part item) (parts item)) :
    Quotes (clauseSql keyword separator (items.map part)) (items.flatMap parts) :=
  clauseSql_adds_up (quotes_plain (by simp)) Quotes.append (quotes_plain hk) (quotes_plain hs) h

end

-- ---------------------------------------------------------------------------
-- The literals of each part
-- ---------------------------------------------------------------------------

def Field.literals : Field → List (List Char)
  | .column _ => []
  | .path _ steps => ['$' :: '.' :: steps.toList]

def Fragment.literals : Fragment → List (List Char)
  | .containsAll field texts => texts.flatMap fun _ => field.literals
  | .oneOf field values | .noneOf field values => if values.isEmpty then [] else field.literals
  | .filled field | .unfilled field => field.literals ++ field.literals ++ [[]]
  | .isNull field | .isNotNull field | .compare field _ _ | .contains field _ => field.literals

def Statement.literals (statement : Statement) : List (List Char) :=
  statement.conjuncts.flatMap Fragment.literals ++ statement.disjuncts.flatMap Fragment.literals ++
    statement.order.flatMap fun term => term.field.literals

theorem quote_notMem_of_isNameChar {text : List Char} (h : ∀ c ∈ text, isNameChar c = true) :
    '\'' ∉ text :=
  notMem_of_isNameChar (by decide) h

theorem Field.Clean.quotes {field : Field} (h : field.Clean) : Quotes field.sql field.literals := by
  cases field with
  | column name =>
    exact quotes_plain (quote_notMem_of_isNameChar fun c hc => isNameChar_of_isWordChar (h.2 c hc))
  | path base steps =>
    have hb := quote_notMem_of_isNameChar fun c hc => isNameChar_of_isWordChar (h.1.2 c hc)
    have hs : '\'' ∉ ("$." ++ steps).toList := by
      simpa using quote_notMem_of_isNameChar h.2
    have hsql : (Field.path base steps).sql =
        "json_extract(" ++ base ++ ", " ++ "'" ++ ("$." ++ steps) ++ "'" ++ ")" := by
      apply String.toList_inj.mp
      simp
    have hl : Quotes ("json_extract(" ++ base ++ ", " ++ "'" ++ ("$." ++ steps) ++ "'")
        [("$." ++ steps).toList] := quotes_literal (by simp) (by simp [hb]) hs
    rw [hsql]
    simpa [Field.literals] using hl.append_plain (by decide : '\'' ∉ ")".toList)

theorem quotes_emptyText {text : String} (hne : text.toList ≠ []) (ht : '\'' ∉ text.toList) :
    Quotes (text ++ "''") [[]] := by
  have hl : Quotes (text ++ "'" ++ "" ++ "'") [[]] := quotes_literal hne ht (by simp)
  have htext : text ++ "'" ++ "" ++ "'" = text ++ "''" := by
    apply String.toList_inj.mp
    simp
  rwa [htext] at hl

theorem quotes_placeholders (count : Nat) : Quotes (placeholders count) [] := by
  have hj : Quotes (joined ", " ((List.replicate count ()).map fun _ => "?"))
      ((List.replicate count ()).flatMap fun _ => []) :=
    quotes_joined (by decide) fun _ _ => quotes_plain (by decide)
  simpa [placeholders, List.flatMap_eq_nil_iff.mpr] using hj

theorem Comparison.quote_notMem (comparison : Comparison) : '\'' ∉ comparison.sql.toList := by
  cases comparison <;> decide

theorem Direction.quote_notMem (direction : Direction) : '\'' ∉ direction.sql.toList := by
  cases direction <;> decide

theorem quotes_listed {field : Field} (h : field.Clean) {comparison : String}
    (hc : '\'' ∉ comparison.toList) (count : Nat) :
    Quotes (field.sql ++ comparison ++ placeholders count ++ ")") field.literals := by
  have hlist := (h.quotes.append_plain hc).append (quotes_placeholders count)
  rw [List.append_nil] at hlist
  exact hlist.append_plain (by decide)

theorem Fragment.quotes {fragment : Fragment} (h : fragment.field.Clean) :
    Quotes fragment.sql fragment.literals := by
  have hf := h.quotes
  cases fragment with
  | isNull field | isNotNull field | contains field => exact hf.append_plain (by decide)
  | compare field comparison operand =>
    exact ((hf.append_plain (by decide)).append_plain comparison.quote_notMem).append_plain
      (by decide)
  | containsAll field texts =>
    cases texts with
    | nil => exact quotes_plain (by decide : '\'' ∉ "1=1".toList)
    | cons first rest =>
      have hj := quotes_joined (by decide : '\'' ∉ " AND ".toList) fun _ (_ : _ ∈ first :: rest) =>
        hf.append_plain (by decide : '\'' ∉ " LIKE ?".toList)
      exact (hj.plain_append (by decide)).append_plain (by decide)
  | oneOf field values =>
    cases values with
    | nil => exact quotes_plain (by decide : '\'' ∉ "1=0".toList)
    | cons first rest => exact quotes_listed h (by decide) _
  | noneOf field values =>
    cases values with
    | nil => exact quotes_plain (by decide : '\'' ∉ "1=1".toList)
    | cons first rest => exact quotes_listed h (by decide) _
  | filled field =>
    have he := quotes_emptyText (by decide : " != ".toList ≠ []) (by decide)
    exact ((hf.append_plain (by decide)).append hf).append he
  | unfilled field =>
    have he := quotes_emptyText (by decide : " = ".toList ≠ []) (by decide)
    have hend := he.append_plain (by decide : '\'' ∉ ")".toList)
    exact (((hf.plain_append (by decide)).append_plain (by decide)).append hf).append hend

theorem quotes_grouped {fragments : List Fragment}
    (h : ∀ fragment ∈ fragments, fragment.field.Clean) (connective : String)
    (hc : '\'' ∉ connective.toList) :
    Quotes ("(" ++ joined connective (fragments.map Fragment.sql) ++ ")")
      (fragments.flatMap Fragment.literals) := by
  have hj := quotes_joined hc fun fragment hm => Fragment.quotes (h fragment hm)
  exact (hj.plain_append (by decide)).append_plain (by decide)

/-- A reader of a statement finds its literals and no others. -/
theorem Statement.Clean.quotes {statement : Statement} (h : statement.Clean) :
    Quotes statement.sql statement.literals := by
  have hgroups : Quotes (clauseSql " WHERE " " AND " statement.groups)
      (statement.conjuncts.flatMap Fragment.literals ++
        statement.disjuncts.flatMap Fragment.literals) := by
    rw [groups_eq, ← flatMap_groupings]
    refine quotes_clause (by decide) (by decide) fun group hg => ?_
    rcases eq_of_mem_groupings hg with rfl | rfl
    · exact quotes_grouped h.conjuncts " AND " (by decide)
    · exact quotes_grouped h.disjuncts " OR " (by decide)
  have horder : Quotes (clauseSql " ORDER BY " ", " (statement.order.map OrderTerm.sql))
      (statement.order.flatMap fun term => term.field.literals) :=
    quotes_clause (by decide) (by decide) fun term hm =>
      ((h.order term hm).quotes.append_plain (by decide)).append_plain term.direction.quote_notMem
  have hselect : Quotes ("SELECT * FROM " ++ statement.table) [] :=
    (quotes_plain (quote_notMem_of_isNameChar h.table)).plain_append (by decide)
  have hall := ((hselect.append hgroups).append horder)
  exact (hall.append_plain (by split <;> decide)).append_plain (by split <;> decide)

end Folio.Query
