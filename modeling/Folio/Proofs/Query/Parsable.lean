import Folio.Database.Rows
import Folio.Proofs.Attempt
import Folio.Proofs.Query.Limit
import Folio.Proofs.Query.Literals

/-!
# What a database can parse of a statement

A database reads an offset only behind a limit, and follows a path only when there is a name
behind each of its points. A filter may ask for an offset alone, and a field may end in a point
or have two of them side by side. Neither is reported, and these are the only ways in which
the page and the paths of a filter without messages go wrong.
-/

namespace Folio.Query

-- ---------------------------------------------------------------------------
-- Offsets
-- ---------------------------------------------------------------------------

/-- Wherever the text asks for an offset, it has just asked for a limit. -/
def OffsetBehindLimit (sql : String) : Prop :=
  ∀ before after, sql.toList = before ++ " OFFSET ?".toList ++ after →
    " LIMIT ?".toList <:+ before

/-- What stands in front of a placeholder, but for that of an offset. -/
def placeMarks : List String :=
  ["(", ", ", "= ", "> ", "< ", "LIKE ", "LIMIT "]

/-- Each placeholder of the text has one of the marks in front of it. -/
def Placed (text : String) : Prop :=
  ∀ n < text.toList.length, text.toList[n]? = some '?' →
    ∃ mark ∈ placeMarks, mark.toList <:+ text.toList.take n

instance (text : String) : Decidable (Placed text) := by
  unfold Placed
  infer_instance

theorem placed_of_notMem {text : String} (h : '?' ∉ text.toList) : Placed text :=
  fun _ _ hn => absurd (List.mem_of_getElem? hn) h

theorem Placed.append {text more : String} (h : Placed text) (hm : Placed more) :
    Placed (text ++ more) := by
  intro n hn hq
  simp only [String.toList_append, List.length_append] at hn hq ⊢
  by_cases hl : n < text.toList.length
  · rw [List.getElem?_append_left hl] at hq
    rw [List.take_append_of_le_length (Nat.le_of_lt hl)]
    exact h n hl hq
  · rw [List.getElem?_append_right (by omega)] at hq
    obtain ⟨mark, hmark, hs⟩ := hm _ (by omega) hq
    refine ⟨mark, hmark, ?_⟩
    rw [List.take_append, List.take_of_length_le (by omega)]
    exact hs.trans (List.suffix_append ..)

/-- No mark ends as the keyword of an offset does, so placed texts hold no such keyword. -/
theorem Placed.length_le {text : String} (h : Placed text) {more before after : List Char}
    (he : text.toList ++ more = before ++ " OFFSET ?".toList ++ after) :
    text.toList.length ≤ (before ++ " OFFSET ".toList).length := by
  by_contra hl
  replace hl := Nat.lt_of_not_le hl
  have hsplit : text.toList ++ more = (before ++ " OFFSET ".toList) ++ '?' :: after := by
    simpa using he
  have hmark : text.toList[(before ++ " OFFSET ".toList).length]? = some '?' := by
    rw [← List.getElem?_append_left hl, hsplit]
    simp
  have htake : text.toList.take (before ++ " OFFSET ".toList).length =
      before ++ " OFFSET ".toList := by
    rw [← List.take_append_of_le_length (Nat.le_of_lt hl), hsplit, List.take_left]
  obtain ⟨mark, hm, hs⟩ := h _ hl hmark
  rw [htake] at hs
  have hend : ∀ mark ∈ placeMarks,
      mark.toList.length ≤ " OFFSET ".toList.length ∧ ¬ mark.toList <:+ " OFFSET ".toList := by
    decide
  obtain ⟨hlen, hne⟩ := hend mark hm
  exact hne (List.suffix_of_suffix_length_le hs (List.suffix_append ..) hlen)

/-- Behind a placed text there is no offset but the one that is put there. -/
theorem Placed.eq_before {text : String} (h : Placed text) {before after : List Char}
    (he : text.toList ++ " OFFSET ?".toList = before ++ " OFFSET ?".toList ++ after) :
    before = text.toList := by
  have hl := h.length_le he
  have hmark : " OFFSET ?".toList[(before ++ " OFFSET ".toList).length - text.toList.length]? =
      some '?' := by
    rw [← List.getElem?_append_right hl, he]
    simp
  have hlast : ∀ n < " OFFSET ?".toList.length, " OFFSET ?".toList[n]? = some '?' →
      n = " OFFSET ".toList.length := by
    decide
  have hn := hlast _ (List.getElem?_eq_some_iff.mp hmark).1 hmark
  rw [List.append_assoc] at he
  refine (List.append_inj he ?_).1.symm
  simp only [List.length_append] at hl hn
  omega

theorem placed_joined {separator : String} (hs : '?' ∉ separator.toList) {parts : List String}
    (h : ∀ part ∈ parts, Placed part) : Placed (joined separator parts) :=
  joined_of_append (placed_of_notMem (by simp)) Placed.append (placed_of_notMem hs) h

theorem placed_clauseSql {keyword separator : String} (hk : '?' ∉ keyword.toList)
    (hs : '?' ∉ separator.toList) {parts : List String} (h : ∀ part ∈ parts, Placed part) :
    Placed (clauseSql keyword separator parts) :=
  clauseSql_of_append (placed_of_notMem (by simp)) Placed.append (placed_of_notMem hk)
    (placed_of_notMem hs) h

theorem placed_placeholders {text : String} (h : Placed (text ++ "?")) (count : Nat) :
    Placed (text ++ placeholders (count + 1)) := by
  induction count generalizing text with
  | zero => exact h
  | succ count ih =>
    have hrest : Placed (", " ++ placeholders (count + 1)) := ih (by decide)
    have htext : text ++ placeholders (count + 1 + 1) =
        (text ++ "?") ++ (", " ++ placeholders (count + 1)) := by
      rw [show placeholders (count + 1 + 1) = "?" ++ ", " ++ placeholders (count + 1) from rfl]
      simp only [String.append_assoc]
    rw [htext]
    exact h.append hrest

theorem Fragment.placed {fragment : Fragment} (h : fragment.field.Clean) :
    Placed fragment.sql := by
  have hf : Placed fragment.field.sql := placed_of_notMem h.placeholder_notMem
  have hlike : Placed (fragment.field.sql ++ " LIKE ?") := hf.append (by decide)
  have hlist {keyword : String} (hk : Placed (keyword ++ "?")) (count : Nat) :
      Placed (fragment.field.sql ++ keyword ++ placeholders (count + 1) ++ ")") := by
    have hall := (hf.append (placed_placeholders hk count)).append (by decide : Placed ")")
    rwa [← String.append_assoc] at hall
  cases fragment with
  | isNull field | isNotNull field => exact hf.append (by decide)
  | compare field comparison operand =>
    have hc : Placed (" " ++ comparison.sql ++ " ?") := by cases comparison <;> decide
    have hall := hf.append hc
    rwa [← String.append_assoc, ← String.append_assoc] at hall
  | contains field text => exact hlike
  | containsAll field texts =>
    cases texts with
    | nil => exact (by decide : Placed "1=1")
    | cons first rest =>
      have hj : Placed (joined " AND " ((first :: rest).map fun _ => field.sql ++ " LIKE ?")) := by
        refine placed_joined (by decide) fun part hp => ?_
        obtain ⟨text, -, rfl⟩ := List.mem_map.mp hp
        exact hlike
      exact ((by decide : Placed "(").append hj).append (by decide)
  | oneOf field values =>
    cases values with
    | nil => exact (by decide : Placed "1=0")
    | cons first rest => exact hlist (by decide) rest.length
  | noneOf field values =>
    cases values with
    | nil => exact (by decide : Placed "1=1")
    | cons first rest => exact hlist (by decide) rest.length
  | filled field => exact ((hf.append (by decide)).append hf).append (by decide)
  | unfilled field =>
    exact ((((by decide : Placed "(").append hf).append (by decide)).append hf).append (by decide)

theorem Statement.Clean.placed_unpaged {statement : Statement} (h : statement.Clean) :
    Placed statement.unpaged := by
  have hgroup {connective : String} (hc : '?' ∉ connective.toList) {fragments : List Fragment}
      (hf : ∀ fragment ∈ fragments, fragment.field.Clean) :
      ∀ part ∈ grouped connective fragments, Placed part := by
    intro part hp
    unfold grouped at hp
    split at hp
    · cases hp
    · obtain rfl := List.mem_singleton.mp hp
      have hj : Placed (joined connective (fragments.map Fragment.sql)) := by
        refine placed_joined hc fun text ht => ?_
        obtain ⟨fragment, hm, rfl⟩ := List.mem_map.mp ht
        exact Fragment.placed (hf fragment hm)
      exact ((by decide : Placed "(").append hj).append (by decide)
  have horder : ∀ part ∈ statement.order.map OrderTerm.sql, Placed part := by
    intro part hp
    obtain ⟨term, hm, rfl⟩ := List.mem_map.mp hp
    refine placed_of_notMem ?_
    simp [OrderTerm.sql, (h.order term hm).placeholder_notMem, term.direction.placeholder_notMem]
  have htable : Placed ("SELECT * FROM " ++ statement.table) :=
    (by decide : Placed "SELECT * FROM ").append
      (placed_of_notMem (notMem_of_isNameChar (by decide) h.table))
  refine (htable.append (placed_clauseSql (by decide) (by decide) ?_)).append
    (placed_clauseSql (by decide) (by decide) horder)
  intro part hp
  rcases List.mem_append.mp hp with hp | hp
  · exact hgroup (by decide) h.conjuncts part hp
  · exact hgroup (by decide) h.disjuncts part hp

theorem Statement.Clean.offsetBehindLimit_iff {statement : Statement} (h : statement.Clean) :
    OffsetBehindLimit statement.sql ↔ (statement.offset.isSome → statement.limit.isSome) := by
  rw [statement.sql_eq_unpaged]
  constructor
  · intro hb ho
    by_contra hl
    -- Without a limit of its own the text would have to end in one before its page.
    have hlimit : " LIMIT ?".toList <:+ statement.unpaged.toList := by
      refine hb _ [] ?_
      simp [hl, ho]
    refine h.unasked_unpaged ?_
    obtain ⟨before, hu⟩ := hlimit
    rw [← hu]
    simp
  · intro hl before after ht
    have hplaced : Placed (statement.unpaged ++
        (if statement.limit.isSome then " LIMIT ?" else "")) :=
      h.placed_unpaged.append (by split <;> decide)
    cases ho : statement.offset with
    | none =>
      replace ht : (statement.unpaged ++ if statement.limit.isSome then " LIMIT ?" else "").toList
          ++ [] = before ++ " OFFSET ?".toList ++ after := by
        simpa [ho] using ht
      have hle := hplaced.length_le ht
      have hlen := congrArg List.length ht
      simp only [List.length_append, List.length_nil, String.toList_append] at hle hlen
      have hkeyword : " OFFSET ".toList.length < " OFFSET ?".toList.length := by decide
      omega
    | some offset =>
      rw [ho, Option.isSome_some, if_pos rfl, String.toList_append] at ht
      rw [hplaced.eq_before ht, if_pos (hl (by simp [ho])), String.toList_append]
      exact List.suffix_append ..

-- ---------------------------------------------------------------------------
-- Paths
-- ---------------------------------------------------------------------------

/-- A path into a document: behind `$` one or more names, each behind a point. -/
def IsDocumentPath (path : List Char) : Prop :=
  ∃ names : List (List Char), names ≠ [] ∧ (∀ name ∈ names, name ≠ [] ∧ '.' ∉ name) ∧
    path = '$' :: names.flatMap ('.' :: ·)

/-- Of a name something is left in front of, between and behind all its points. -/
def IsDotted (name : String) : Prop :=
  ∀ step ∈ (cleanName name).toList.splitOn '.', step ≠ []

instance (name : String) : Decidable (IsDotted name) := by
  unfold IsDotted
  infer_instance

theorem flatMap_cons_eq {names : List (List Char)} (h : names ≠ []) :
    names.flatMap ('.' :: ·) = '.' :: List.intercalate ['.'] names := by
  induction names with
  | nil => exact absurd rfl h
  | cons name names ih =>
    cases names with
    | nil => simp
    | cons next names =>
      rw [List.flatMap_cons, ih (List.cons_ne_nil _ _), List.intercalate_cons_cons]
      simp

/-- No piece of a split text holds the mark at which it was split. -/
theorem notMem_of_mem_splitOn {mark : Char} {text piece : List Char}
    (h : piece ∈ text.splitOn mark) : mark ∉ piece := by
  induction text generalizing piece with
  | nil =>
    rw [List.splitOn_nil, List.mem_singleton] at h
    simp [h]
  | cons c text ih =>
    rw [List.splitOn_cons_eq_if_modifyHead] at h
    split at h
    · rcases List.mem_cons.mp h with rfl | h
      · exact List.not_mem_nil
      · exact ih h
    · rename_i hc
      -- The character joins the first piece of the rest.
      obtain ⟨first, rest, hs⟩ := List.exists_cons_of_ne_nil (List.splitOn_ne_nil mark text)
      rw [hs] at h ih
      rcases List.mem_cons.mp h with rfl | h
      · have hne : mark ≠ c := fun he => hc (by simp [he])
        exact List.not_mem_cons_of_ne_of_not_mem hne (ih List.mem_cons_self)
      · exact ih (List.mem_cons_of_mem _ h)

theorem isDocumentPath_iff {steps : List Char} :
    IsDocumentPath ('$' :: '.' :: steps) ↔ ∀ step ∈ steps.splitOn '.', step ≠ [] := by
  constructor
  · rintro ⟨names, hne, hn, hp⟩
    rw [flatMap_cons_eq hne, List.cons.injEq, List.cons.injEq] at hp
    rw [hp.2.2, List.splitOn_intercalate '.' (fun name hm => (hn name hm).2) hne]
    exact fun name hm => (hn name hm).1
  · intro h
    have hne : steps.splitOn '.' ≠ [] := List.splitOn_ne_nil _ _
    refine ⟨steps.splitOn '.', hne, fun step hs => ⟨h step hs, notMem_of_mem_splitOn hs⟩, ?_⟩
    rw [flatMap_cons_eq hne, List.intercalate_splitOn]

/-- The name that is left of a field: its column, and its path behind a point. -/
def Field.name : Field → List Char
  | .column name => name.toList
  | .path base steps => base.toList ++ '.' :: steps.toList

theorem Field.name_of_ofName? {name : String} {field : Field} (h : ofName? name = some field) :
    (cleanName name).toList = field.name := by
  rw [cleanName, String.toList_ofList]
  simp only [ofName?] at h
  generalize name.toList.filter isNameChar = cleaned at h ⊢
  have hparts : cleaned.takeWhile (· ≠ '.') ++ cleaned.dropWhile (· ≠ '.') = cleaned :=
    List.takeWhile_append_dropWhile
  split at h
  · cases h
  · split at h
    · rename_i hd
      cases h
      rw [hd, List.append_nil] at hparts
      rw [Field.name, String.toList_ofList, hparts]
    · rename_i point steps hd
      cases h
      have hp : point = '.' := by
        have hhead := List.head?_dropWhile_not (· ≠ '.') cleaned
        rw [hd] at hhead
        simpa using hhead
      rw [hd, hp] at hparts
      rw [Field.name, String.toList_ofList, String.toList_ofList, hparts]

theorem IsColumn.point_notMem {name : String} (h : IsColumn name) : '.' ∉ name.toList :=
  fun hm => absurd (h.2 _ hm) (by decide)

theorem Field.isDotted_iff {name : String} {field : Field} (h : ofName? name = some field) :
    IsDotted name ↔ ∀ literal ∈ field.literals, literal = [] ∨ IsDocumentPath literal := by
  have hc := clean_of_ofName? h
  rw [IsDotted, name_of_ofName? h]
  cases field with
  | column name =>
    rw [Field.name, List.splitOn_eq_singleton hc.point_notMem]
    simpa [literals] using hc.1
  | path base steps =>
    rw [Field.name, List.splitOn_append_cons_self_of_not_mem hc.1.point_notMem,
      List.forall_mem_cons, and_iff_right hc.1.1, ← isDocumentPath_iff]
    simp [literals]

/-- Whether a test looks at its field. For no words and for no items it does not. -/
def Operator.looks (operator : Operator) (operand : Json) : Bool :=
  match operator with
  | .like => !(Text.words operand.looseText).isEmpty
  | .oneOf | .noneOf | .allOf => !operand.looseList.isEmpty
  | _ => true

/-- The names of all fields at which a filter looks: in its tests and for its order. -/
def Filter.mentioned (filter : Filter) : List String :=
  ((filter.conjuncts ++ filter.disjuncts).filter fun condition =>
    condition.operator.looks condition.operand).map Condition.field ++
      filter.sort.map SortKey.field

theorem forall_mem_flatMap_const {ι α : Type} {items : List ι} {found : List α}
    {p : α → Prop} : (∀ a ∈ items.flatMap fun _ => found, p a) ↔
      (items.isEmpty = false → ∀ a ∈ found, p a) := by
  cases items with
  | nil => simp
  | cons item items =>
    simp only [List.mem_flatMap, List.isEmpty_cons, forall_const]
    exact ⟨fun h a ha => h a ⟨item, List.mem_cons_self, ha⟩, fun h a ⟨_, _, ha⟩ => h a ha⟩

/-- The literals of a test are those of its field, if it looks at it, and the empty text. -/
theorem Operator.literals_compile {operator : Operator} {field : Field} {operand : Json}
    {fragment : Fragment} (h : operator.compile field operand = .ok fragment) (p : List Char → Prop)
    (hp : p []) :
    (∀ literal ∈ fragment.literals, p literal) ↔
      (operator.looks operand = true → ∀ literal ∈ field.literals, p literal) := by
  cases operator with
  | equals | notEquals =>
    simp only [compile, comparing] at h
    split at h <;> cases h <;> simp [Fragment.literals, looks]
  | filled =>
    simp only [compile] at h
    cases h
    split <;> simp [Fragment.literals, looks, hp, or_imp, forall_and]
  | near | within | intersects | unknown => cases h
  | like | allOf =>
    cases h
    rw [Fragment.literals, forall_mem_flatMap_const]
    simp [looks]
  | oneOf | noneOf =>
    cases h
    cases hl : operand.looseList <;> simp [Fragment.literals, looks, hl]
  | _ =>
    cases h
    simp [Fragment.literals, looks]

theorem Condition.isDotted_iff {condition : Condition} {fragment : Fragment}
    (h : condition.compile = .ok fragment) :
    (∀ literal ∈ fragment.literals, literal = [] ∨ IsDocumentPath literal) ↔
      (condition.operator.looks condition.operand = true → IsDotted condition.field) := by
  obtain ⟨field, hf, ho⟩ := compile_eq_ok.mp h
  rw [Operator.literals_compile ho _ (.inl rfl), Field.isDotted_iff hf]

theorem SortKey.isDotted_iff {key : SortKey} {term : OrderTerm} (h : key.compile = .ok term) :
    (∀ literal ∈ term.field.literals, literal = [] ∨ IsDocumentPath literal) ↔
      IsDotted key.field :=
  (Field.isDotted_iff (compile_eq_ok.mp h).1).symm

-- ---------------------------------------------------------------------------
-- Filters without messages
-- ---------------------------------------------------------------------------

theorem compiles_of_issues_eq_nil {α β : Type} {compile : α → Except Issue β} {items : List α}
    (h : issues compile items = []) : ∀ item ∈ items, ∃ b, compile item = .ok b := by
  intro item hm
  have hi := List.filterMap_eq_nil_iff.mp h item hm
  cases hc : compile item with
  | ok b => exact ⟨b, rfl⟩
  | error issue => simp [hc, issueOf] at hi

/-- What holds of all that a list was compiled to, said of the list, where all of it compiles. -/
theorem forall_mem_compiled {α β : Type} {compile : α → Except Issue β} {items : List α}
    (h : issues compile items = []) {p : β → Prop} {q : α → Prop}
    (hpq : ∀ {item b}, compile item = .ok b → (p b ↔ q item)) :
    (∀ b ∈ compiled compile items, p b) ↔ ∀ item ∈ items, q item := by
  constructor
  · intro hp item hm
    obtain ⟨b, hb⟩ := compiles_of_issues_eq_nil h item hm
    exact (hpq hb).mp (hp b (mem_compiled.mpr ⟨item, hm, hb⟩))
  · intro hq b hm
    obtain ⟨item, hi, hb⟩ := mem_compiled.mp hm
    exact (hpq hb).mpr (hq item hi)

theorem Filter.issues_of_errors_eq_nil {filter : Filter} (h : filter.errors = []) :
    Query.issues Condition.compile filter.conjuncts = [] ∧
      Query.issues Condition.compile filter.disjuncts = [] ∧
      Query.issues SortKey.compile filter.sort = [] := by
  have hi : filter.issues = [] := List.map_eq_nil_iff.mp (List.append_eq_nil_iff.mp h).2
  simpa [issues] using hi

/-- Each literal that a reader of the text finds is empty or a path into a document. -/
def WholePaths (sql : String) : Prop :=
  ∃ found, literals none sql.toList = some found ∧
    ∀ literal ∈ found, literal = [] ∨ IsDocumentPath literal

theorem Statement.Clean.wholePaths_iff {statement : Statement} (h : statement.Clean) :
    WholePaths statement.sql ↔
      ∀ literal ∈ statement.literals, literal = [] ∨ IsDocumentPath literal := by
  simp [WholePaths, h.quotes.literals]

theorem Filter.wholePaths_iff {filter : Filter} (h : filter.errors = []) (table : String) :
    WholePaths (filter.statement table).sql ↔ ∀ name ∈ filter.mentioned, IsDotted name := by
  obtain ⟨hconjuncts, hdisjuncts, hsort⟩ := issues_of_errors_eq_nil h
  have hall := forall_mem_compiled hconjuncts Condition.isDotted_iff
  have hany := forall_mem_compiled hdisjuncts Condition.isDotted_iff
  have horder := forall_mem_compiled hsort SortKey.isDotted_iff
  have hliterals : (filter.statement table).literals =
      (compiled Condition.compile filter.conjuncts).flatMap Fragment.literals ++
        (compiled Condition.compile filter.disjuncts).flatMap Fragment.literals ++
          (compiled SortKey.compile filter.sort).flatMap fun term => term.field.literals := rfl
  rw [(filter.statement_clean table).wholePaths_iff, hliterals]
  simp only [List.forall_mem_append, List.forall_mem_flatMap]
  rw [hall, hany, horder]
  simp only [mentioned, List.forall_mem_append, List.forall_mem_map, List.mem_filter, and_imp]

/-- The database of this library, `Database.run`, runs no offset without a limit. -/
theorem limit_of_run {statement : Statement} {rows : List Json}
    (h : Database.run statement = .ok rows) : statement.offset.isSome → statement.limit.isSome := by
  -- The grammar is checked first, and in it the offset behind the table, conditions and order.
  obtain ⟨_, hs, _⟩ := Attempt.bind_ok.mp h
  obtain ⟨_, _, hs⟩ := Attempt.bind_ok.mp hs
  obtain ⟨_, _, hs⟩ := Attempt.bind_ok.mp hs
  obtain ⟨_, _, hs⟩ := Attempt.bind_ok.mp hs
  obtain ⟨_, hs, _⟩ := Attempt.bind_ok.mp hs
  intro ho
  by_contra hl
  have hoffset : (statement.offset.isSome && statement.limit.isNone) = true := by
    simpa [ho] using hl
  simp only [Database.checkOffset, hoffset, if_true] at hs
  split at hs <;> cases hs

/-- Of a filter without messages the page and the paths of the text can go wrong in two ways only:
it asks for an offset and for no limit, or it looks at a field in whose name there is nothing
between two points or behind the last one. The last part is about the database of this library,
`Database.run`: in a statement that it runs no offset is out of place. -/
theorem Filter.parses_iff {filter : Filter} {table : String}
    (h : (filter.compile table).errors = []) :
    (OffsetBehindLimit (filter.compile table).sql ↔
        ((nonzero filter.offset).isSome → (nonzero filter.limit).isSome)) ∧
      (WholePaths (filter.compile table).sql ↔ ∀ name ∈ filter.mentioned, IsDotted name) ∧
      ∀ rows, Database.run (filter.statement table) = .ok rows →
        OffsetBehindLimit (filter.compile table).sql := by
  have hoffset := (filter.statement_clean table).offsetBehindLimit_iff
  exact ⟨hoffset, wholePaths_iff h table, fun _ hr => hoffset.mpr (limit_of_run hr)⟩

theorem Filter.secondPage_parses :
    let filter : Filter :=
      { empty with limit := some 10, offset := some 10, sort := [⟨"meta.rank", .valid .descending⟩] }
    (filter.compile "posts").errors = [] ∧ OffsetBehindLimit (filter.compile "posts").sql ∧
      WholePaths (filter.compile "posts").sql := by
  intro filter
  have h : (filter.compile "posts").errors = [] := rfl
  obtain ⟨hoffset, hpaths, -⟩ := parses_iff h
  exact ⟨h, hoffset.mpr fun _ => rfl, hpaths.mpr (by decide)⟩

/-- An offset alone, and a name that ends in its point: both texts are malformed, and neither
filter has a message. -/
theorem Filter.malformed_without_message :
    let second : Filter := { empty with offset := some 10 }
    let pointed : Filter := { empty with sort := [⟨"meta.", .valid .ascending⟩] }
    (second.compile "posts").errors = [] ∧ ¬ OffsetBehindLimit (second.compile "posts").sql ∧
      (pointed.compile "posts").errors = [] ∧ ¬ WholePaths (pointed.compile "posts").sql := by
  intro second pointed
  have h : pointed.errors = [] := rfl
  refine ⟨rfl, ?_, rfl, ?_⟩
  · intro hb
    exact absurd ((second.statement_clean "posts").offsetBehindLimit_iff.mp hb rfl) (by decide)
  · intro hp
    exact absurd ((wholePaths_iff h "posts").mp hp) (by decide)

end Folio.Query
