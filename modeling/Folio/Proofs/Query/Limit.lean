import Folio.Config
import Folio.Proofs.Query.Joined
import Folio.Proofs.Query.Placeholders
import Folio.Proofs.Text.Leading
import Folio.Query.Result

/-!
# The cap of the limit

A statement asks for at most so many rows by a placeholder behind its order. A query string
can ask for a limit, a configuration caps it. No limit of a statement is above the cap, and a
limit that counts rows is kept up to the cap. Zero asks for no limit.
-/

namespace Folio.Query

open Numeral (Leading)

-- ---------------------------------------------------------------------------
-- The limit in the text of a statement
-- ---------------------------------------------------------------------------

/-- The last placeholder but that of the offset stands behind `LIMIT`, and has the value `n`. -/
def CompiledQuery.LimitedTo (query : CompiledQuery) (n : Int) : Prop :=
  ∃ before after, query.sql = before ++ " LIMIT ?" ++ after ∧ after ∈ ["", " OFFSET ?"] ∧
    query.params[before.toList.count '?']? = some (.int n)

/-- A statement without its page. -/
def Statement.unpaged (statement : Statement) : String :=
  "SELECT * FROM " ++ statement.table ++
    clauseSql " WHERE " " AND " statement.groups ++
    clauseSql " ORDER BY " ", " (statement.order.map OrderTerm.sql)

/-- The page stands behind everything else. -/
theorem Statement.sql_eq_unpaged (statement : Statement) :
    statement.sql = statement.unpaged ++ (if statement.limit.isSome then " LIMIT ?" else "") ++
      (if statement.offset.isSome then " OFFSET ?" else "") := rfl

theorem Statement.toList_unpaged (statement : Statement) :
    statement.unpaged.toList = "SELECT * FROM ".toList ++ statement.table.toList ++
      (clauseSql " WHERE " " AND " statement.groups).toList ++
        (clauseSql " ORDER BY " ", " (statement.order.map OrderTerm.sql)).toList := by
  refine (String.toList_append ..).trans ?_
  simp only [String.toList_append]

theorem Statement.Clean.count_unpaged {statement : Statement} (h : statement.Clean) :
    statement.unpaged.toList.count '?' =
      (statement.conjuncts.flatMap Fragment.params ++
        statement.disjuncts.flatMap Fragment.params).length := by
  have hselect : fill "SELECT * FROM ".toList ([] : List Json) = some (written "SELECT * FROM ") :=
    fill_written _ (by decide)
  have hstart := fill_append_some hselect
    (fill_written _ (notMem_of_isNameChar (by decide) h.table))
  have hall := fill_append_some (fill_append_some hstart h.fill_conditions) h.fill_order
  simp only [List.nil_append, List.append_nil] at hall
  rw [toList_unpaged]
  exact count_of_fill hall

/-- The text does not end in a placeholder. -/
def Unasked (text : List Char) : Prop :=
  text.getLast? ≠ some '?'

theorem Unasked.append {text more : List Char} (h : Unasked text) (hm : Unasked more) :
    Unasked (text ++ more) := by
  unfold Unasked at *
  rw [List.getLast?_append]
  cases hl : more.getLast? with
  | none => simpa using h
  | some c => simpa [hl] using hm

theorem Unasked.of_notMem {text : List Char} (h : '?' ∉ text) : Unasked text :=
  fun hl => h (List.mem_of_getLast? hl)

theorem unasked_concat (text : List Char) {c : Char} (h : c ≠ '?') : Unasked (text ++ [c]) := by
  simpa [Unasked] using h

theorem unasked_clauseSql {keyword separator : String} (hk : '?' ∉ keyword.toList)
    (hs : '?' ∉ separator.toList) {parts : List String}
    (h : ∀ part ∈ parts, Unasked part.toList) :
    Unasked (clauseSql keyword separator parts).toList := by
  refine clauseSql_of_append (P := fun text => Unasked text.toList) (.of_notMem (by simp))
    (fun ht hm => ?_) (.of_notMem hk) (.of_notMem hs) h
  rw [String.toList_append]
  exact ht.append hm

theorem Statement.Clean.unasked_unpaged {statement : Statement} (h : statement.Clean) :
    Unasked statement.unpaged.toList := by
  have hgroup (connective : String) (fragments : List Fragment) :
      ∀ part ∈ grouped connective fragments, Unasked part.toList := by
    intro part hp
    unfold grouped at hp
    split at hp
    · cases hp
    · obtain rfl := List.mem_singleton.mp hp
      rw [String.toList_append]
      exact unasked_concat _ (by decide)
  have hgroups : ∀ part ∈ statement.groups, Unasked part.toList := by
    intro part hp
    rcases List.mem_append.mp hp with hp | hp
    · exact hgroup _ _ part hp
    · exact hgroup _ _ part hp
  have horder : ∀ part ∈ statement.order.map OrderTerm.sql, Unasked part.toList := by
    intro part hp
    obtain ⟨term, -, rfl⟩ := List.mem_map.mp hp
    rw [OrderTerm.sql, String.toList_append]
    refine Unasked.append ?_ (.of_notMem term.direction.placeholder_notMem)
    rw [String.toList_append]
    exact unasked_concat _ (by decide)
  rw [toList_unpaged]
  refine Unasked.append (.append (.append (.of_notMem (by decide)) ?_) ?_) ?_
  · exact .of_notMem (notMem_of_isNameChar (by decide) h.table)
  · exact unasked_clauseSql (by decide) (by decide) hgroups
  · exact unasked_clauseSql (by decide) (by decide) horder

theorem offset_inj {text other : List Char} {part otherPart : String}
    (ht : ¬ "OFFSET ?".toList <:+ text) (ho : ¬ "OFFSET ?".toList <:+ other)
    (hp : part ∈ ["", " OFFSET ?"]) (hq : otherPart ∈ ["", " OFFSET ?"])
    (h : text ++ part.toList = other ++ otherPart.toList) : text = other := by
  have hends (before : List Char) : "OFFSET ?".toList <:+ before ++ " OFFSET ?".toList :=
    ⟨before ++ [' '], by simp⟩
  simp only [List.mem_cons, List.not_mem_nil, or_false] at hp hq
  rcases hp with rfl | rfl <;> rcases hq with rfl | rfl
  · simpa using h
  · rw [String.toList_empty, List.append_nil] at h
    exact absurd (h ▸ hends other) ht
  · rw [String.toList_empty, List.append_nil] at h
    exact absurd (h ▸ hends text) ho
  · exact List.append_cancel_right h

theorem limit_not_offset (before : List Char) :
    ¬ "OFFSET ?".toList <:+ before ++ " LIMIT ?".toList := by
  intro h
  have hsuffix := List.suffix_of_suffix_length_le h (List.suffix_append ..) (by decide)
  exact absurd hsuffix (by decide)

theorem Unasked.not_offset {text : List Char} (h : Unasked text) :
    ¬ "OFFSET ?".toList <:+ text := by
  rintro ⟨before, rfl⟩
  exact h (by simp)

theorem Filter.limitedTo_iff {filter : Filter} {table : String} {n : Int} :
    (filter.compile table).LimitedTo n ↔ (filter.statement table).limit = some n := by
  have hclean := filter.statement_clean table
  generalize hs : filter.statement table = statement at hclean ⊢
  have hsql : (filter.compile table).sql =
      statement.unpaged ++ (if statement.limit.isSome then " LIMIT ?" else "") ++
        (if statement.offset.isSome then " OFFSET ?" else "") := by
    rw [← statement.sql_eq_unpaged, ← hs, Filter.compile]
  have hoffset : (if statement.offset.isSome then " OFFSET ?" else "") ∈ ["", " OFFSET ?"] := by
    split <;> simp
  have hparam : (filter.compile table).params[statement.unpaged.toList.count '?']? =
      (statement.limit.toList.map Json.int ++ statement.offset.toList.map Json.int)[0]? := by
    rw [hclean.count_unpaged]
    show (filter.statement table).params[_]? = _
    rw [hs, Statement.params, List.append_assoc _ (statement.limit.toList.map Json.int),
      List.getElem?_append_right (Nat.le_refl _), Nat.sub_self]
  constructor
  · rintro ⟨before, after, hb, ha, hp⟩
    have htext := congrArg String.toList (hb.symm.trans hsql)
    simp only [String.toList_append] at htext
    cases hl : statement.limit with
    | none =>
      simp only [hl, Option.isSome_none, Bool.false_eq_true, if_false, String.toList_empty,
        List.append_nil] at htext
      have hbefore :=
        offset_inj (limit_not_offset _) hclean.unasked_unpaged.not_offset ha hoffset htext
      exact absurd (by simp [← hbefore]) hclean.unasked_unpaged
    | some m =>
      simp only [hl, Option.isSome_some, if_true] at htext
      have hlimited := offset_inj (limit_not_offset _) (limit_not_offset _) ha hoffset htext
      have hbefore := List.append_cancel_right hlimited
      rw [hbefore, hparam, hl] at hp
      cases hp
      rfl
  · intro hl
    refine ⟨statement.unpaged, _, ?_, hoffset, ?_⟩
    · rw [hsql, hl]
      rfl
    · rw [hparam, hl]
      rfl

-- ---------------------------------------------------------------------------
-- Limits from query strings
-- ---------------------------------------------------------------------------

theorem leadingInteger?_eq {text : String} (n : Leading text.toList) :
    leadingInteger? text = if n.value.natAbs ≤ Numeral.largest 63 then some n.value else none :=
  n.leading_eq _

namespace Filter

/-- No limit of a statement is above the cap. A text that counts rows, from one up to the
largest integer, limits the statement to so many rows, but to no more than a cap that allows
any. Zero asks for no limit. -/
theorem limit_is_capped (config : Config) (parameters : Parameters) (table : String) :
    (∀ v, ((ofParameters parameters config.maxLimit).compile table).LimitedTo v →
        v ≤ config.maxLimit) ∧
      ∀ text, parameters.get? "limit" = some text → ∀ n : Leading text.toList,
        0 ≤ n.value → n.value ≤ Number.integerLimit → 0 < config.maxLimit →
          (0 < n.value →
            0 < min n.value config.maxLimit ∧
              ((ofParameters parameters config.maxLimit).compile table).LimitedTo
                (min n.value config.maxLimit)) ∧
          (n.value = 0 →
            ∀ v, ¬ ((ofParameters parameters config.maxLimit).compile table).LimitedTo v) := by
  have hlimit : ((ofParameters parameters config.maxLimit).statement table).limit =
      nonzero (((parameters.get? "limit").bind leadingInteger?).map (min · config.maxLimit)) := rfl
  simp only [limitedTo_iff, hlimit]
  refine ⟨?_, ?_⟩
  · intro v hv
    obtain ⟨hv, -⟩ := Option.filter_eq_some_iff.mp hv
    obtain ⟨n, -, rfl⟩ := Option.map_eq_some_iff.mp hv
    exact Int.min_le_right ..
  · intro text ht n h0 hl hc
    have hsize : n.value.natAbs ≤ Numeral.largest 63 := by
      unfold Number.integerLimit at hl
      omega
    rw [ht, Option.bind_some, leadingInteger?_eq, if_pos hsize, Option.map_some]
    refine ⟨fun hp => ⟨by omega, Option.filter_eq_some_iff.mpr ⟨rfl, ?_⟩⟩, fun hz v hv => ?_⟩
    · simp
      omega
    · obtain ⟨hv, hne⟩ := Option.filter_eq_some_iff.mp hv
      cases hv
      simp at hne
      omega

/-- A query string that only asks for a limit. -/
def askingFor (text : String) : Parameters where
  lookup
    | "limit" => some text
    | _ => none

def unsetConfig : Config where
  databaseUrl := "sqlite::memory:"
  maxConnections := 5
  maxLimit := 1000
  cacheSeconds := 300
  cachePrefix := "api"

def fiveThousand : Leading " +5000 rows".toList where
  blanks := [' ']
  sign := .plus
  digits := ['5', '0', '0', '0']
  rest := [' ', 'r', 'o', 'w', 's']
  text_eq := by decide
  isBlank := by decide
  isDigit := by decide
  ne_nil := by decide
  stops := by
    rintro c ⟨⟩
    rfl

theorem fiveThousand_is_capped :
    Config.ofLookup (fun _ => none) = .ok unsetConfig ∧
      (askingFor " +5000 rows").get? "limit" = some " +5000 rows" ∧
      fiveThousand.value = 5000 ∧
      ((ofParameters (askingFor " +5000 rows") unsetConfig.maxLimit).compile "content").LimitedTo
        1000 := by
  have hvalue : fiveThousand.value = 5000 := rfl
  have hcapped := (limit_is_capped unsetConfig (askingFor " +5000 rows") "content").2
    " +5000 rows" rfl fiveThousand (by decide) (by decide) (by decide)
  exact ⟨rfl, rfl, hvalue, (hcapped.1 (by decide)).2⟩

/-- With nothing configured a query string that asks for zero rows gets a statement without a
limit, which finds all of them. -/
theorem zero_is_not_limited :
    Config.ofLookup (fun _ => none) = .ok unsetConfig ∧
      (askingFor "0").get? "limit" = some "0" ∧ Nonempty (Leading "0".toList) ∧
      ((ofParameters (askingFor "0") unsetConfig.maxLimit).compile "content").sql =
        "SELECT * FROM content" ∧
      ∀ v,
        ¬ ((ofParameters (askingFor "0") unsetConfig.maxLimit).compile "content").LimitedTo v := by
  refine ⟨rfl, rfl, ⟨Leading.ofNat 0⟩, by decide, fun v hv => ?_⟩
  cases limitedTo_iff.mp hv

end Filter

end Folio.Query
