import Folio.Database.Binding
import Folio.Proofs.Query.Clean

/-!
# Placeholders and parameters line up

A statement and its parameters leave the compiler as two lists that only their order
ties together. `fill` reads the text from the left and gives each placeholder the
next value. What it finds is `Statement.inPlace`, where every operand stands behind
the field and the comparison that it was asked for.
-/

namespace Folio.Query

variable {α β : Type}

/-- A text in which values stand in the places of the placeholders. -/
abbrev Filled (α : Type) := List (Char ⊕ α)

/-- Gives each placeholder of a text the next value. All values have to be used. -/
def fill : List Char → List α → Option (Filled α)
  | [], [] => some []
  | [], _ :: _ => none
  | c :: text, values =>
    if c = '?' then
      match values with
      | [] => none
      | value :: rest => (fill text rest).map (.inr value :: ·)
    else (fill text values).map (.inl c :: ·)

def written (text : String) : Filled α :=
  text.toList.map .inl

-- ---------------------------------------------------------------------------
-- Filling
-- ---------------------------------------------------------------------------

theorem fill_append {text more : List Char} {values others : List α} {filled : Filled α}
    (h : fill text values = some filled) :
    fill (text ++ more) (values ++ others) = (fill more others).map (filled ++ ·) := by
  induction text generalizing values filled with
  | nil =>
    cases values with
    | nil =>
      cases h
      simp
    | cons => cases h
  | cons c text ih =>
    simp only [fill] at h
    split at h
    · rename_i hc
      cases values with
      | nil => cases h
      | cons value rest =>
        obtain ⟨tail, ht, rfl⟩ := Option.map_eq_some_iff.mp h
        simp [fill, hc, ih ht, Function.comp_def]
    · rename_i hc
      obtain ⟨tail, ht, rfl⟩ := Option.map_eq_some_iff.mp h
      simp [fill, hc, ih ht, Function.comp_def]

theorem fill_append_some {text more : List Char} {values others : List α}
    {filled next : Filled α} (h : fill text values = some filled)
    (hm : fill more others = some next) :
    fill (text ++ more) (values ++ others) = some (filled ++ next) := by
  rw [fill_append h, hm, Option.map_some]

theorem fill_plain {text : List Char} (h : '?' ∉ text) :
    fill text ([] : List α) = some (text.map .inl) := by
  induction text with
  | nil => rfl
  | cons c text ih =>
    rw [List.mem_cons, not_or] at h
    simp [fill, Ne.symm h.1, ih h.2]

theorem fill_written (text : String) (h : '?' ∉ text.toList) :
    fill text.toList ([] : List α) = some (written text) :=
  fill_plain h

theorem count_of_fill {text : List Char} {values : List α} {filled : Filled α}
    (h : fill text values = some filled) : text.count '?' = values.length := by
  induction text generalizing values filled with
  | nil => cases values <;> simp_all [fill]
  | cons c text ih =>
    simp only [fill] at h
    split at h
    · rename_i hc
      cases values with
      | nil => cases h
      | cons value rest =>
        obtain ⟨tail, ht, rfl⟩ := Option.map_eq_some_iff.mp h
        simp [hc, ih ht]
    · rename_i hc
      obtain ⟨tail, ht, rfl⟩ := Option.map_eq_some_iff.mp h
      rw [List.count_cons_of_ne hc, ih ht]

theorem fill_map (f : α → β) (text : List Char) (values : List α) :
    fill text (values.map f) = (fill text values).map (List.map (Sum.map id f)) := by
  induction text generalizing values with
  | nil => cases values <;> rfl
  | cons c text ih =>
    by_cases hc : c = '?'
    · cases values with
      | nil => simp [fill, hc]
      | cons value rest => simp [fill, hc, ih, Option.map_map, Function.comp_def]
    · simp [fill, hc, ih, Option.map_map, Function.comp_def]

theorem fill_joined {ι : Type} (separator : String) (hs : '?' ∉ separator.toList)
    (items : List ι) {text : ι → String} {values : ι → List α} {filled : ι → Filled α}
    (h : ∀ item ∈ items, fill (text item).toList (values item) = some (filled item)) :
    fill (joined separator (items.map text)).toList (items.flatMap values) =
      some (List.intercalate (written separator) (items.map filled)) := by
  induction items with
  | nil => rfl
  | cons item items ih =>
    have hi := h item List.mem_cons_self
    have hr := ih fun other ho => h other (List.mem_cons_of_mem _ ho)
    cases items with
    | nil => simpa [joined] using hi
    | cons next items =>
      have hb := fill_append_some hi (fill_append_some (fill_written separator hs) hr)
      simpa [joined] using hb

-- ---------------------------------------------------------------------------
-- Statements with their operands in place
-- ---------------------------------------------------------------------------

def tested (field : Field) (comparison : String) (operand : Json) : Filled Json :=
  written (field.sql ++ comparison) ++ [.inr operand]

def listed (field : Field) (comparison : String) (operands : List Json) : Filled Json :=
  written (field.sql ++ comparison ++ "(") ++
    List.intercalate (written ", ") (operands.map fun operand => [.inr operand]) ++ written ")"

def Fragment.inPlace : Fragment → Filled Json
  | .compare field comparison operand => tested field (" " ++ comparison.sql ++ " ") operand
  | .contains field text => tested field " LIKE " (substringPattern text)
  | .containsAll field texts =>
    if texts.isEmpty then written "1=1"
    else
      written "(" ++ List.intercalate (written " AND ")
        (texts.map fun text => tested field " LIKE " (substringPattern text)) ++ written ")"
  | .oneOf field values =>
    if values.isEmpty then written "1=0" else listed field " IN " values
  | .noneOf field values =>
    if values.isEmpty then written "1=1" else listed field " NOT IN " values
  | .isNull field => written (field.sql ++ " IS NULL")
  | .isNotNull field => written (field.sql ++ " IS NOT NULL")
  | .filled field => written (field.sql ++ " IS NOT NULL AND " ++ field.sql ++ " != ''")
  | .unfilled field => written ("(" ++ field.sql ++ " IS NULL OR " ++ field.sql ++ " = '')")

/-- The groups of fragments that a statement has, with their connectives. -/
def Statement.groupings (statement : Statement) : List (String × List Fragment) :=
  [(" AND ", statement.conjuncts), (" OR ", statement.disjuncts)].filter (!·.2.isEmpty)

def groupInPlace (group : String × List Fragment) : Filled Json :=
  written "(" ++ List.intercalate (written group.1) (group.2.map Fragment.inPlace) ++ written ")"

def clauseInPlace (keyword separator : String) (parts : List (Filled Json)) : Filled Json :=
  if parts.isEmpty then [] else written keyword ++ List.intercalate (written separator) parts

def pageInPlace (keyword : String) (n : Option Int) : Filled Json :=
  match n with
  | none => []
  | some n => written keyword ++ [.inr (.int n)]

/-- The statement with every operand in the place where it counts. -/
def Statement.inPlace (statement : Statement) : Filled Json :=
  written "SELECT * FROM " ++ written statement.table ++
    clauseInPlace " WHERE " " AND " (statement.groupings.map groupInPlace) ++
    clauseInPlace " ORDER BY " ", " (statement.order.map fun term => written term.sql) ++
    pageInPlace " LIMIT " statement.limit ++ pageInPlace " OFFSET " statement.offset

theorem Statement.groups_eq (statement : Statement) :
    statement.groups = statement.groupings.map fun group =>
      "(" ++ joined group.1 (group.2.map Fragment.sql) ++ ")" := by
  unfold groups groupings grouped
  cases statement.conjuncts <;> cases statement.disjuncts <;> rfl

theorem Statement.eq_of_mem_groupings {statement : Statement} {group : String × List Fragment}
    (h : group ∈ statement.groupings) :
    group = (" AND ", statement.conjuncts) ∨ group = (" OR ", statement.disjuncts) := by
  simpa using (List.mem_filter.mp h).1

theorem Statement.flatMap_groupings (statement : Statement) (f : Fragment → List α) :
    (statement.groupings.flatMap fun group => group.2.flatMap f) =
      statement.conjuncts.flatMap f ++ statement.disjuncts.flatMap f := by
  unfold groupings
  cases statement.conjuncts <;> cases statement.disjuncts <;> simp

-- ---------------------------------------------------------------------------
-- Names hold no placeholder
-- ---------------------------------------------------------------------------

theorem IsColumn.placeholder_notMem {name : String} (h : IsColumn name) : '?' ∉ name.toList :=
  notMem_of_isNameChar (by decide) fun c hc => isNameChar_of_isWordChar (h.2 c hc)

theorem Field.Clean.placeholder_notMem {field : Field} (h : field.Clean) :
    '?' ∉ field.sql.toList := by
  cases field with
  | column name => exact IsColumn.placeholder_notMem h
  | path base steps =>
    have hb := IsColumn.placeholder_notMem h.1
    have hs : '?' ∉ steps.toList := notMem_of_isNameChar (by decide) h.2
    simp [hb, hs]

theorem Direction.placeholder_notMem (direction : Direction) :
    '?' ∉ direction.sql.toList := by
  cases direction <;> decide

theorem Comparison.placeholder_notMem (comparison : Comparison) :
    '?' ∉ comparison.sql.toList := by
  cases comparison <;> decide

-- ---------------------------------------------------------------------------
-- Filling a statement
-- ---------------------------------------------------------------------------

theorem fill_tested {field : Field} (hf : field.Clean) (comparison : String)
    (hc : '?' ∉ comparison.toList) (operand : Json) :
    fill (field.sql ++ comparison ++ "?").toList [operand] =
      some (tested field comparison operand) := by
  have hn : '?' ∉ (field.sql ++ comparison).toList := by
    simp [hf.placeholder_notMem, hc]
  have hp : fill ['?'] [operand] = some [.inr operand] := rfl
  have h := fill_append_some (fill_written _ hn) hp
  simpa [tested] using h

theorem fill_listed {field : Field} (hf : field.Clean) (comparison : String)
    (hc : '?' ∉ comparison.toList) (operands : List Json) :
    fill (field.sql ++ comparison ++ "(" ++ placeholders operands.length ++ ")").toList operands =
      some (listed field comparison operands) := by
  have hn : '?' ∉ (field.sql ++ comparison ++ "(").toList := by
    simp [hf.placeholder_notMem, hc]
  have hp : fill (placeholders operands.length).toList operands =
      some (List.intercalate (written ", ") (operands.map fun operand => [.inr operand])) := by
    have h : fill (joined ", " (operands.map fun _ => "?")).toList
        (operands.flatMap fun operand => [operand]) =
          some (List.intercalate (written ", ") (operands.map fun operand => [.inr operand])) :=
      fill_joined ", " (by decide) operands fun _ _ => rfl
    simpa [placeholders, List.map_const'] using h
  have h := fill_append_some (fill_append_some (fill_written _ hn) hp)
    (fill_written ")" (by decide))
  simpa [listed] using h

theorem fill_substring {field : Field} (hf : field.Clean) (text : String) :
    fill (field.sql ++ " LIKE ?").toList [substringPattern text] =
      some (tested field " LIKE " (substringPattern text)) := by
  simpa [String.append_assoc] using
    fill_tested hf " LIKE " (by decide) (substringPattern text)

theorem Fragment.fill_sql {fragment : Fragment} (hf : fragment.field.Clean) :
    fill fragment.sql.toList fragment.params = some fragment.inPlace := by
  cases fragment with
  | compare field comparison operand =>
    replace hf : field.Clean := hf
    have hc : '?' ∉ (" " ++ comparison.sql ++ " ").toList := by
      simp [comparison.placeholder_notMem]
    simpa [sql, params, inPlace, String.append_assoc] using fill_tested hf _ hc operand
  | contains field text => exact fill_substring hf text
  | containsAll field texts =>
    replace hf : field.Clean := hf
    cases texts with
    | nil => exact fill_written "1=1" (by decide)
    | cons first rest =>
      have hj := fill_joined " AND " (by decide) (first :: rest)
        fun text _ => fill_substring hf text
      rw [← List.map_eq_flatMap] at hj
      have h := fill_append_some (fill_append_some
        (fill_written "(" (by decide)) hj)
        (fill_written ")" (by decide))
      simpa [sql, params, inPlace] using h
  | oneOf field values =>
    replace hf : field.Clean := hf
    cases values with
    | nil => exact fill_written "1=0" (by decide)
    | cons first rest =>
      have h := fill_listed hf " IN " (by decide) (first :: rest)
      simpa [sql, params, inPlace, String.append_assoc] using h
  | noneOf field values =>
    replace hf : field.Clean := hf
    cases values with
    | nil => exact fill_written "1=1" (by decide)
    | cons first rest =>
      have h := fill_listed hf " NOT IN " (by decide) (first :: rest)
      simpa [sql, params, inPlace, String.append_assoc] using h
  | isNull field | isNotNull field | filled field | unfilled field =>
    replace hf : field.Clean := hf
    apply fill_written
    simp [sql, hf.placeholder_notMem]

theorem fill_group {fragments : List Fragment} (hf : ∀ fragment ∈ fragments, fragment.field.Clean)
    (connective : String) (hc : '?' ∉ connective.toList) :
    fill ("(" ++ joined connective (fragments.map Fragment.sql) ++ ")").toList
        (fragments.flatMap Fragment.params) =
      some (groupInPlace (connective, fragments)) := by
  have hj := fill_joined connective hc fragments fun fragment hm =>
    Fragment.fill_sql (hf fragment hm)
  have h := fill_append_some (fill_append_some
    (fill_written "(" (by decide)) hj)
    (fill_written ")" (by decide))
  simpa [groupInPlace] using h

/-- A clause is filled part by part, and has no placeholder when it is left out. -/
theorem fill_clause {ι : Type} (keyword separator : String) (hk : '?' ∉ keyword.toList)
    (hs : '?' ∉ separator.toList) (items : List ι) {text : ι → String} {values : ι → List Json}
    {filled : ι → Filled Json}
    (h : ∀ item ∈ items, fill (text item).toList (values item) = some (filled item)) :
    fill (clauseSql keyword separator (items.map text)).toList (items.flatMap values) =
      some (clauseInPlace keyword separator (items.map filled)) := by
  cases items with
  | nil => rfl
  | cons first rest =>
    have hj := fill_append_some (fill_written keyword hk) (fill_joined separator hs _ h)
    simpa [clauseSql, clauseInPlace] using hj

theorem fill_page (keyword text : String) (hk : '?' ∉ keyword.toList)
    (ht : text.toList = keyword.toList ++ ['?']) (n : Option Int) :
    fill (if n.isSome then text else "").toList (n.toList.map Json.int) =
      some (pageInPlace keyword n) := by
  cases n with
  | none => rfl
  | some n =>
    have h := fill_append_some (fill_written keyword hk)
      (show fill ['?'] [Json.int n] = some [.inr (.int n)] from rfl)
    simpa [pageInPlace, ht] using h

theorem Statement.Clean.fill_conditions {statement : Statement} (h : statement.Clean) :
    fill (clauseSql " WHERE " " AND " statement.groups).toList
        (statement.conjuncts.flatMap Fragment.params ++
          statement.disjuncts.flatMap Fragment.params) =
      some (clauseInPlace " WHERE " " AND " (statement.groupings.map groupInPlace)) := by
  rw [groups_eq, ← flatMap_groupings]
  refine fill_clause _ _ (by decide) (by decide) _ fun group hg => ?_
  rcases eq_of_mem_groupings hg with rfl | rfl
  · exact fill_group h.conjuncts " AND " (by decide)
  · exact fill_group h.disjuncts " OR " (by decide)

theorem Statement.Clean.fill_order {statement : Statement} (h : statement.Clean) :
    fill (clauseSql " ORDER BY " ", " (statement.order.map OrderTerm.sql)).toList
        ([] : List Json) =
      some (clauseInPlace " ORDER BY " ", "
        (statement.order.map fun term => written term.sql)) := by
  have hterm : ∀ term ∈ statement.order, fill term.sql.toList ([] : List Json) =
      some (written term.sql) := by
    intro term hm
    apply fill_written
    simp [OrderTerm.sql, (h.order term hm).placeholder_notMem, term.direction.placeholder_notMem]
  have hj := fill_clause " ORDER BY " ", " (by decide) (by decide) _ hterm
  rwa [List.flatMap_eq_nil_iff.mpr fun _ _ => rfl] at hj

/-- Reading a statement from the left, every operand is met where it counts. -/
theorem Statement.Clean.fill_sql {statement : Statement} (h : statement.Clean) :
    fill statement.sql.toList statement.params = some statement.inPlace := by
  have hselect : fill "SELECT * FROM ".toList ([] : List Json) = some (written "SELECT * FROM ") :=
    fill_written _ (by decide)
  have hstart := fill_append_some hselect
    (fill_written _ (notMem_of_isNameChar (by decide) h.table))
  have hpage := fill_append_some
    (fill_page " LIMIT " " LIMIT ?" (by decide) rfl statement.limit)
    (fill_page " OFFSET " " OFFSET ?" (by decide) rfl statement.offset)
  have hall := fill_append_some (fill_append_some (fill_append_some hstart h.fill_conditions)
    h.fill_order) hpage
  unfold sql params inPlace
  simpa only [String.toList_append, List.nil_append, List.append_nil, List.append_assoc] using hall

end Folio.Query
