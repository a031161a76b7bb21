import Folio.Proofs.Query.Clean
import Folio.Proofs.Text.Trimmed
import Folio.Query.Result

/-!
# Lists in two forms

Where an operator takes a list, the operand can be an array of strings or one string with commas
between them. Blanks around the parts of the string do not count, and neither do parts that are
blank. For one list of texts the strings that are so written are just those that compile to
what the array compiles to, alone and in the place of a condition of any filter.
-/

namespace Folio

open Text (IsTrimmed isBlank isTrimmed_trim exists_padding)

-- ---------------------------------------------------------------------------
-- Texts with commas
-- ---------------------------------------------------------------------------

namespace Json

/-- The parts of a text between its commas hold the items in their order, with blanks around
them. Parts without an item are blank. -/
inductive Padded : List (List Char) → List (List Char) → Prop
  | nil : Padded [] []
  | blank {part : List Char} {parts items : List (List Char)}
      (hp : ∀ c ∈ part, isBlank c = true) (h : Padded parts items) : Padded (part :: parts) items
  | item {before item after : List Char} {parts items : List (List Char)}
      (hb : ∀ c ∈ before, isBlank c = true) (ha : ∀ c ∈ after, isBlank c = true)
      (h : Padded parts items) : Padded ((before ++ (item ++ after)) :: parts) (item :: items)

/-- The text lists the items with commas between them. -/
def Lists (text : List Char) (items : List (List Char)) : Prop :=
  ∃ parts, Padded parts items ∧ text = List.intercalate [','] parts

/-- What can stand in such a text: something without a comma and without blanks at its ends. -/
structure IsItem (item : List Char) : Prop extends IsTrimmed item where
  ne_nil : item ≠ []
  comma_notMem : ',' ∉ item

section
variable {text : List Char} {items parts : List (List Char)}

theorem comma_notMem_of_blank {blanks : List Char} (h : ∀ c ∈ blanks, isBlank c = true) :
    ',' ∉ blanks :=
  fun hm => absurd (h _ hm) (by decide)

theorem Padded.comma_notMem (h : Padded parts items) (hi : ∀ item ∈ items, IsItem item) :
    ∀ part ∈ parts, ',' ∉ part := by
  induction h with
  | nil => simp
  | blank hp _ ih => exact List.forall_mem_cons.mpr ⟨comma_notMem_of_blank hp, ih hi⟩
  | item hb ha _ ih =>
    obtain ⟨hitem, hi⟩ := List.forall_mem_cons.mp hi
    refine List.forall_mem_cons.mpr ⟨?_, ih hi⟩
    simp [comma_notMem_of_blank hb, hitem.comma_notMem, comma_notMem_of_blank ha]

theorem Padded.filter_trim (h : Padded parts items) (hi : ∀ item ∈ items, IsItem item) :
    (parts.map Text.trim).filter (!·.isEmpty) = items := by
  induction h with
  | nil => rfl
  | blank hp _ ih =>
    rw [List.map_cons, Text.trim_eq_nil hp, List.filter_cons_of_neg (by simp), ih hi]
  | item hb ha _ ih =>
    obtain ⟨hitem, hi⟩ := List.forall_mem_cons.mp hi
    rw [List.map_cons, hitem.trim_padded hb ha, List.filter_cons_of_pos (by simp [hitem.ne_nil]),
      ih hi]

theorem pieces_intercalate (h : Padded parts items) (hi : ∀ item ∈ items, IsItem item) :
    pieces (List.intercalate [','] parts) = items := by
  rw [pieces]
  cases parts with
  | nil => cases h; rfl
  | cons part parts =>
    rw [List.splitOn_intercalate ',' (h.comma_notMem hi) (by simp), h.filter_trim hi]

/-- Cut at its commas, every text holds its pieces. -/
theorem padded_filter_trim (parts : List (List Char)) :
    Padded parts ((parts.map Text.trim).filter (!·.isEmpty)) := by
  induction parts with
  | nil => exact .nil
  | cons part parts ih =>
    obtain ⟨before, after, hb, ha, hpart⟩ := exists_padding part
    rw [List.map_cons]
    by_cases hempty : Text.trim part = []
    · rw [hempty, List.filter_cons_of_neg (by simp)]
      rw [hempty, List.nil_append] at hpart
      refine .blank (fun c hc => ?_) ih
      rw [hpart] at hc
      exact (List.mem_append.mp hc).elim (hb c) (ha c)
    · rw [List.filter_cons_of_pos (by simp [hempty])]
      have hitem : Padded ((before ++ (Text.trim part ++ after)) :: parts) (Text.trim part :: _) :=
        .item hb ha ih
      rwa [← hpart] at hitem

/-- The items can be read off a text in one way, and only a text that lists them has them. -/
theorem pieces_eq_iff (hi : ∀ item ∈ items, IsItem item) :
    pieces text = items ↔ Lists text items := by
  constructor
  · rintro rfl
    exact ⟨text.splitOn ',', padded_filter_trim _, (List.intercalate_splitOn ',').symm⟩
  · rintro ⟨parts, h, rfl⟩
    exact pieces_intercalate h hi

end

end Json

-- ---------------------------------------------------------------------------
-- Conditions on lists
-- ---------------------------------------------------------------------------

namespace Query

/-- Whether the operand counts as a list. -/
def Operator.takesList : Operator → Bool
  | .oneOf | .noneOf | .allOf => true
  | _ => false

/-- An array of strings. -/
def arrayOperand (items : List String) : Json :=
  .array (items.map .string)

section
variable {operator : Operator} {field : Field} {operand other : Json}

/-- Of its operand such an operator sees the list and nothing else. -/
theorem Operator.compile_eq_of_looseList (h : operator.takesList = true)
    (hl : operand.looseList = other.looseList) :
    operator.compile field operand = operator.compile field other := by
  cases operator with
  | oneOf | noneOf | allOf => simp only [compile, hl]
  | _ => cases h

/-- And it sees the texts of the whole list. -/
theorem Operator.looseTexts_eq_of_compile (h : operator.takesList = true)
    (hc : operator.compile field operand = operator.compile field other) :
    operand.looseList.map Json.looseText = other.looseList.map Json.looseText := by
  cases operator with
  | oneOf | noneOf =>
    simp only [compile, Except.ok.injEq, Fragment.oneOf.injEq, Fragment.noneOf.injEq,
      true_and] at hc
    rw [hc]
  | allOf =>
    simp only [compile, Except.ok.injEq, Fragment.containsAll.injEq, true_and] at hc
    simpa [Function.comp_def] using congrArg (List.map String.toList) hc
  | _ => cases h

end

section
variable {items : List String} {text : String}

theorem looseTexts_string (text : String) :
    (Json.string text).looseList.map Json.looseText = Json.pieces text.toList := by
  simp [Json.looseList, Function.comp_def]

theorem looseTexts_arrayOperand (items : List String) :
    (arrayOperand items).looseList.map Json.looseText = items.map String.toList := by
  simp [arrayOperand, Json.looseList]

theorem looseList_eq_of_pieces (h : Json.pieces text.toList = items.map String.toList) :
    (Json.string text).looseList = (arrayOperand items).looseList := by
  simp [Json.looseList, h, arrayOperand]

end

-- ---------------------------------------------------------------------------
-- Filters around a condition
-- ---------------------------------------------------------------------------

/-- A filter with a gap for one condition, among its conjuncts or among its disjuncts. -/
structure Gap where
  filter : Filter
  before : List Condition
  after : List Condition
  /-- The conditions of the other list. -/
  others : List Condition
  rejected : List String
  isDisjunct : Bool

def Gap.group (gap : Gap) (condition : Condition) : Group :=
  let conditions := gap.before ++ condition :: gap.after
  if gap.isDisjunct then ⟨gap.others, conditions, gap.rejected⟩
  else ⟨conditions, gap.others, gap.rejected⟩

def Gap.fill (gap : Gap) (condition : Condition) : Filter :=
  { gap.filter with group := some (gap.group condition) }

section
variable {condition other : Condition}

theorem compiled_gap (h : condition.compile = other.compile) (before after : List Condition) :
    compiled Condition.compile (before ++ condition :: after) =
      compiled Condition.compile (before ++ other :: after) := by
  simp only [compiled, List.filterMap_append, List.filterMap_cons, h]

theorem issues_gap (h : condition.compile = other.compile) (before after : List Condition) :
    issues Condition.compile (before ++ condition :: after) =
      issues Condition.compile (before ++ other :: after) := by
  simp only [issues, List.filterMap_append, List.filterMap_cons, h]

/-- A condition counts in a filter for what it compiles to. -/
theorem Gap.compile_fill (h : condition.compile = other.compile) (gap : Gap) (table : String) :
    (gap.fill condition).compile table = (gap.fill other).compile table := by
  have hs : (gap.fill condition).statement table = (gap.fill other).statement table := by
    cases hd : gap.isDisjunct <;>
      simp [Filter.statement, Filter.conjuncts, Filter.disjuncts, fill, group, hd, compiled_gap h]
  have he : (gap.fill condition).errors = (gap.fill other).errors := by
    cases hd : gap.isDisjunct <;>
      simp [Filter.errors, Filter.issues, Filter.conjuncts, Filter.disjuncts, fill, group, hd,
        issues_gap h]
  rw [Filter.compile, Filter.compile, hs, he]

end

/-- A string that lists the items compiles to what their array compiles to, whatever stands
around the condition; and where the field has a meaning no other string does. -/
theorem comma_text_compiles_like_array {operator : Operator} (ho : operator.takesList = true)
    {items : List String} (hi : ∀ item ∈ items, Json.IsItem item.toList) (name : String) :
    let listing (text : String) : Condition := ⟨name, operator, .string text⟩
    let array : Condition := ⟨name, operator, arrayOperand items⟩
    (∀ text, Json.Lists text.toList (items.map String.toList) →
      (listing text).compile = array.compile ∧
        ∀ (gap : Gap) table, (gap.fill (listing text)).compile table =
          (gap.fill array).compile table) ∧
      ∀ text field, Field.ofName? name = some field → (listing text).compile = array.compile →
        Json.Lists text.toList (items.map String.toList) := by
  intro listing array
  have hitems : ∀ item ∈ items.map String.toList, Json.IsItem item := List.forall_mem_map.mpr hi
  refine ⟨fun text ht => ?_, fun text field hf hc => ?_⟩
  · have hlist := looseList_eq_of_pieces ((Json.pieces_eq_iff hitems).mpr ht)
    have hcompile : (listing text).compile = array.compile := by
      simp only [listing, array, Condition.compile, Operator.compile_eq_of_looseList ho hlist]
    exact ⟨hcompile, Gap.compile_fill hcompile⟩
  · have hoperator : operator.compile field (.string text) =
        operator.compile field (arrayOperand items) := by
      simpa [listing, array, Condition.compile, fieldOf, hf, bind, Except.bind] using hc
    have htexts := Operator.looseTexts_eq_of_compile ho hoperator
    rw [looseTexts_string, looseTexts_arrayOperand] at htexts
    exact (Json.pieces_eq_iff hitems).mp htexts

/-- Blanks around the parts, an empty part and a comma at the end, beside one more condition. -/
theorem tagText_compiles_like_array :
    let tags := ["lean proofs", "sql"]
    let text := " lean proofs,,\tsql ,"
    let gap : Gap :=
      ⟨Filter.empty, [⟨"status", .equals, .string "draft"⟩], [], [], [], false⟩
    (∀ tag ∈ tags, Json.IsItem tag.toList) ∧
      Json.Lists text.toList (tags.map String.toList) ∧
      (gap.fill ⟨"meta.tags", .allOf, .string text⟩).compile "posts" =
        (gap.fill ⟨"meta.tags", .allOf, arrayOperand tags⟩).compile "posts" := by
  intro tags text gap
  have htags : ∀ tag ∈ tags, Json.IsItem tag.toList := by
    refine List.forall_mem_cons.mpr ⟨?_, List.forall_mem_singleton.mpr ?_⟩ <;>
      exact ⟨Text.isTrimmed_iff.mpr (by decide), by decide, by decide⟩
  have hlists : Json.Lists text.toList (tags.map String.toList) := by
    rw [← Json.pieces_eq_iff (List.forall_mem_map.mpr htags)]
    decide
  exact ⟨htags, hlists,
    ((comma_text_compiles_like_array rfl htags "meta.tags").1 text hlists).2 gap "posts"⟩

end Query

end Folio
