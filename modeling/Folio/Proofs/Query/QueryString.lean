import Folio.Proofs.Json.Written
import Folio.Proofs.Query.Limit
import Folio.Proofs.Query.RoundTrip

/-!
# Filters as query strings

A filter from a body can be sent as a query string: its group and its order as JSON texts, its
page as digits. What is read from the query string is the filter.
-/

namespace Folio.Query

open Attempt (map_ok)
open Json (Closed Gathers Gives Layout Members Reading Schema WellFormed Whole compact
  maxNesting nestingOfMembers_le readValue)

-- ---------------------------------------------------------------------------
-- Written filters are data
-- ---------------------------------------------------------------------------

section
variable {α : Type} {write : α → Json} {items : List α}

theorem wellFormed_listOf (h : ∀ item ∈ items, (write item).WellFormed) :
    (listOf write items).WellFormed := by
  simpa [listOf] using h

theorem whole_listOf (h : ∀ item ∈ items, (write item).Whole) : (listOf write items).Whole := by
  simpa [listOf] using h

end

theorem Condition.wellFormed_encode {condition : Condition} (h : condition.operand.WellFormed) :
    condition.encode.WellFormed := by
  have hkeys : ["field", "operator", "value"].Pairwise (· < ·) := by decide
  exact .object (Members.sorted_of_keys hkeys) (by simp [h])

theorem Condition.whole_encode {condition : Condition} (h : condition.operand.Whole) :
    condition.encode.Whole := by
  simp [encode, h]

theorem SortKey.wellFormed_encode (key : SortKey) : key.encode.WellFormed := by
  have hkeys : ["field", "order"].Pairwise (· < ·) := by decide
  exact .object (Members.sorted_of_keys hkeys) (by simp)

theorem SortKey.whole_encode (key : SortKey) : key.encode.Whole := by
  simp [encode]

/-- A body holds the filter, as data or as a text. -/
def Filter.IsRead (filter : Filter) : Prop :=
  (∃ value : Json, value.WellFormed ∧ decode value = .ok filter) ∨
    ∃ text, parse text = .ok filter

theorem Filter.IsRead.legible {filter : Filter} (h : filter.IsRead) :
    filter.Legible WellFormed := by
  rcases h with ⟨value, hv, hd⟩ | ⟨text, ht⟩
  · exact legible_of_decode Json.hereditary_wellFormed .null hv hd
  · obtain ⟨fields, hf, rfl⟩ := map_ok.mp ht
    exact legible_ofFields Json.hereditary_wellFormed .null (Schema.holds_of_parse hf)

-- ---------------------------------------------------------------------------
-- Texts of the parts
-- ---------------------------------------------------------------------------

/-- The operands of the conditions can be written, and are read as they were. -/
def Sendable (conditions : List Condition) : Prop :=
  ∀ condition ∈ conditions, condition.operand.WellFormed ∧ condition.operand.Whole

theorem Sendable.gives {conditions : List Condition} (h : Sendable conditions) {allowance : Nat}
    (hn : (listOf Condition.encode conditions).nesting ≤ allowance) {rest : List Char}
    (hr : Closed rest) :
    Gives (readValue allowance) (compact (listOf Condition.encode conditions) ++ rest)
      (listOf Condition.encode conditions) rest :=
  (wellFormed_listOf fun c hc => Condition.wellFormed_encode (h c hc).1).gives_readValue
    (whole_listOf fun c hc => Condition.whole_encode (h c hc).2) hn hr

theorem gathers_optionalMember {α σ : Type} {entry : σ → String → Reading σ} {state next : σ}
    {key : String} {write : α → Json} {value : Option α} (hn : value = none → state = next)
    (h : ∀ a, value = some a → ∀ rest, Closed rest →
      Gives (entry state key) (':' :: compact (write a) ++ rest) next rest) :
    Gathers entry state (optionalMember key (value.map write)) next := by
  cases value with
  | none =>
    obtain rfl := hn rfl
    exact .nil state
  | some a => exact .cons (h a rfl) (.nil next)

theorem eq_of_nonempty? {α : Type} {items kept : List α} (h : nonempty? items = some kept) :
    kept = items := by
  cases items with
  | nil => cases h
  | cons item items =>
    cases h
    rfl

/-- The members of a written group. -/
def Group.members (group : Group) : Members :=
  optionalMember "and" ((nonempty? group.conjuncts).map (listOf Condition.encode)) ++
    optionalMember "or" ((nonempty? group.disjuncts).map (listOf Condition.encode))

theorem Group.encode_eq (group : Group) : group.encode = .object group.members := by
  rw [encode, listMember_map, listMember_map, members]

theorem Group.gathers_fields {group : Group} (hc : Sendable group.conjuncts)
    (hd : Sendable group.disjuncts) {allowance : Nat}
    (hn : ∀ m ∈ group.members, m.2.nesting ≤ allowance) :
    Gathers (groupSchema.layout.readMember allowance) groupSchema.layout.noneMet group.members
      group.fields := by
  have hconjuncts : Gathers (groupSchema.layout.readMember allowance) (none, none, ())
      (optionalMember "and" ((nonempty? group.conjuncts).map (listOf Condition.encode)))
      ((nonempty? group.conjuncts).map (listOf Condition.encode), none, ()) := by
    refine gathers_optionalMember (fun h => by rw [h]; rfl) fun conditions h rest hr => ?_
    have hnest := hn ("and", listOf Condition.encode conditions) (by
      simp [members, optionalMember, h])
    rw [h]
    obtain rfl := eq_of_nonempty? h
    exact Layout.gives_readMember_here (hc.gives hnest hr)
  have hdisjuncts : Gathers (groupSchema.layout.readMember allowance)
      ((nonempty? group.conjuncts).map (listOf Condition.encode), none, ())
      (optionalMember "or" ((nonempty? group.disjuncts).map (listOf Condition.encode)))
      group.fields := by
    refine gathers_optionalMember (fun h => by rw [fields, h]; rfl) fun conditions h rest hr => ?_
    have hnest := hn ("or", listOf Condition.encode conditions) (by
      simp [members, optionalMember, h])
    rw [fields, h]
    obtain rfl := eq_of_nonempty? h
    exact Layout.gives_readMember_there (by decide)
      (Layout.gives_readMember_here (hd.gives hnest hr))
  exact hconjuncts.append hdisjuncts

theorem Group.parse_toText {group : Group} (hc : Sendable group.conjuncts)
    (hd : Sendable group.disjuncts) (hn : group.encode.nesting ≤ maxNesting) :
    groupSchema.parse group.encode.toText = .ok group.fields := by
  rw [encode_eq] at hn ⊢
  have hmembers := nestingOfMembers_le.mp (Nat.le_of_succ_le_succ hn)
  exact Schema.parse_toText ((gathers_fields hc hd hmembers).gives_record rfl [])

theorem SortKey.nesting_encode (key : SortKey) : key.encode.nesting = 1 := by
  rfl

theorem parse_sort (keys : List SortKey) :
    (Schema.list .any).parse (listOf SortKey.encode keys).toText =
      .ok (keys.map SortKey.encode) := by
  refine Schema.parse_toText (Json.gives_list_any (fun value hv => ?_) [])
  obtain ⟨key, -, rfl⟩ := List.mem_map.mp hv
  refine ⟨key.whole_encode.startsValue, fun rest hr => ?_⟩
  have hnest : key.encode.nesting ≤ 126 := by
    rw [key.nesting_encode]
    decide
  exact key.wellFormed_encode.gives_readValue key.whole_encode hnest hr

/-- The digits of a number are read as the number. -/
theorem leadingInteger?_intText {n : Int} (h0 : 0 ≤ n) (hn : n ≤ Number.integerLimit) :
    leadingInteger? (String.ofList (Number.intText n)) = some n := by
  obtain ⟨m, rfl⟩ := Int.eq_ofNat_of_zero_le h0
  have hvalue : (Numeral.Leading.ofNat m).value = m :=
    congrArg Int.ofNat (Numeral.valueOf_toDigits m)
  have hsize : (Numeral.Leading.ofNat m).value.natAbs ≤ Numeral.largest 63 := by
    rw [hvalue]
    unfold Number.integerLimit at hn
    omega
  have htext : Number.intText m = Nat.toDigits 10 m := if_neg (by omega)
  rw [leadingInteger?, String.toList_ofList, htext, Numeral.Leading.leading_eq, if_pos hsize,
    hvalue]

-- ---------------------------------------------------------------------------
-- Filters
-- ---------------------------------------------------------------------------

/-- The parameters hold the parts of the filter, and no plain test. An empty order may also
be left out. -/
structure Parameters.Carries (parameters : Parameters) (filter : Filter) : Prop where
  group : parameters.get? "where" = filter.group.map fun group => group.encode.toText
  sort : parameters.get? "sort" = some (listOf SortKey.encode filter.sort).toText ∨
    filter.sort = [] ∧ parameters.get? "sort" = none
  limit : parameters.get? "limit" = filter.limit.map fun n => String.ofList (Number.intText n)
  offset : parameters.get? "offset" = filter.offset.map fun n => String.ofList (Number.intText n)
  plain : ∀ field ∈ plainFields, parameters.get? field = none

namespace Parameters.Carries

variable {parameters : Parameters} {filter : Filter}

theorem read_group (h : parameters.Carries filter) (hf : filter.Legible WellFormed)
    (hr : ∀ group ∈ filter.group, group.rejected = [])
    (hw : ∀ condition ∈ filter.conjuncts ++ filter.disjuncts, condition.operand.Whole)
    (hn : ∀ group ∈ filter.group, group.encode.nesting ≤ maxNesting) :
    parameters.group = (filter.group, []) := by
  obtain ⟨group, limit, offset, sort, rejected⟩ := filter
  rw [Parameters.group, h.group]
  cases group with
  | none => rfl
  | some group =>
    have hc : Sendable group.conjuncts := fun c hc =>
      ⟨(hf.conjunct c hc).operand, hw c (List.mem_append_left _ hc)⟩
    have hd : Sendable group.disjuncts := fun c hd =>
      ⟨(hf.disjunct c hd).operand, hw c (List.mem_append_right _ hd)⟩
    have hread : Group.parse group.encode.toText = .ok group := by
      rw [Group.parse, Group.parse_toText hc hd (hn group rfl)]
      show Except.ok (Group.ofFields group.fields) = _
      rw [Group.ofFields_fields hf.conjunct hf.disjunct, Group.unreported, ← hr group rfl]
    simp only [Option.map_some, hread]

theorem read_sort (h : parameters.Carries filter) (hf : filter.Legible WellFormed) :
    parameters.sort = ⟨filter.sort, []⟩ := by
  rw [Parameters.sort]
  rcases h.sort with hs | ⟨hempty, hs⟩
  · rw [hs]
    simp only [parse_sort]
    exact Sorted.ofItems_map fun key hk => SortKey.decode_encode (hf.order key hk)
  · rw [hs, hempty]

theorem plainConditions (h : parameters.Carries filter) : parameters.plainConditions = [] := by
  refine List.filterMap_eq_nil_iff.mpr fun field hf => ?_
  rw [h.plain field hf]
  rfl

theorem read_limit (h : parameters.Carries filter) (hf : filter.Legible WellFormed)
    {maxLimit : Int} (hl : ∀ n ∈ filter.limit, 0 ≤ n ∧ n ≤ maxLimit) :
    ((parameters.get? "limit").bind leadingInteger?).map (min · maxLimit) = filter.limit := by
  rw [h.limit]
  cases hn : filter.limit with
  | none => rfl
  | some n =>
    obtain ⟨h0, hmax⟩ := hl n hn
    rw [Option.map_some, Option.bind_some, leadingInteger?_intText h0 (hf.limit n hn),
      Option.map_some, Int.min_eq_left hmax]

theorem read_offset (h : parameters.Carries filter) (hf : filter.Legible WellFormed)
    (ho : ∀ n ∈ filter.offset, 0 ≤ n) :
    (parameters.get? "offset").bind leadingInteger? = filter.offset := by
  rw [h.offset]
  cases hn : filter.offset with
  | none => rfl
  | some n =>
    rw [Option.map_some, Option.bind_some, leadingInteger?_intText (ho n hn) (hf.offset n hn)]

end Parameters.Carries

/-- The query string that carries the filter. -/
def Filter.toParameters (filter : Filter) : Parameters where
  lookup
    | "where" => filter.group.map fun group => group.encode.toText
    | "sort" => (nonempty? filter.sort).map fun keys => (listOf SortKey.encode keys).toText
    | "limit" => filter.limit.map fun n => String.ofList (Number.intText n)
    | "offset" => filter.offset.map fun n => String.ofList (Number.intText n)
    | _ => none

theorem get?_of_nonempty {α : Type} {parameters : Parameters} {name : String} {part : Option α}
    {text : α → String} (h : parameters.lookup name = part.map text)
    (hn : ∀ a, (text a).isEmpty = false) : parameters.get? name = part.map text := by
  rw [Parameters.get?, h]
  cases part with
  | none => rfl
  | some a => simp [Option.filter, hn]

theorem isEmpty_ofList_cons (c : Char) (text : List Char) :
    (String.ofList (c :: text)).isEmpty = false := by
  simp

theorem Filter.carries_toParameters (filter : Filter) : filter.toParameters.Carries filter where
  group := get?_of_nonempty rfl fun group => isEmpty_ofList_cons ..
  sort := by
    have hsort : filter.toParameters.get? "sort" =
        (nonempty? filter.sort).map fun keys => (listOf SortKey.encode keys).toText :=
      get?_of_nonempty rfl fun keys => isEmpty_ofList_cons ..
    rw [hsort]
    cases filter.sort with
    | nil => exact .inr ⟨rfl, rfl⟩
    | cons key keys => exact .inl rfl
  limit := get?_of_nonempty rfl fun n => by
    obtain ⟨c, rest, hc, -⟩ := Json.intText_eq_cons n
    rw [hc, isEmpty_ofList_cons]
  offset := get?_of_nonempty rfl fun n => by
    obtain ⟨c, rest, hc, -⟩ := Json.intText_eq_cons n
    rw [hc, isEmpty_ofList_cons]
  plain := by
    simp [plainFields, Parameters.get?, toParameters]

namespace Filter

/-- A filter read from a body with nothing rejected comes out of the query string that carries
it as it was, and so does all that it compiles to. -/
theorem ofParameters_of_carries {filter : Filter} (h : filter.IsRead)
    (hr : ∀ group ∈ filter.group, group.rejected = [])
    (hw : ∀ condition ∈ filter.conjuncts ++ filter.disjuncts, condition.operand.Whole)
    (hn : ∀ group ∈ filter.group, group.encode.nesting ≤ maxNesting) {maxLimit : Int}
    (hl : ∀ n ∈ filter.limit, 0 ≤ n ∧ n ≤ maxLimit) (ho : ∀ n ∈ filter.offset, 0 ≤ n)
    {parameters : Parameters} (hc : parameters.Carries filter) :
    ofParameters parameters maxLimit = filter ∧
      ∀ table, (ofParameters parameters maxLimit).compile table = filter.compile table := by
  -- What a body leaves can be written, and so come back from its text.
  have hf := h.legible
  have heq : ofParameters parameters maxLimit = filter := by
    simp only [ofParameters, hc.read_group hf hr hw hn, hc.read_sort hf, hc.plainConditions,
      hc.read_limit hf hl, hc.read_offset hf ho]
    obtain ⟨group, limit, offset, sort, rejected⟩ := filter
    obtain rfl : rejected = [] := hf.rejected
    rfl
  exact ⟨heq, fun table => by rw [heq]⟩

/-- Pages that are drafts or come from one of two authors, by a title with a quote. All parts
are lists of their fields. -/
def quotedDrafts : Json :=
  .array [
    .array [
      .array [.array [.string "title", .string "contains", .string "a \"b\"\n"]],
      .array [.array [.string "status", .string "equals", .string "draft"],
        .array [.string "author", .string "in", .array [.int 3, .int (-4)]]]],
    .int 20,
    .int 40,
    .array [.array [.string "title", .string "DESC"],
      .array [.string "views", .string "sideways"]]]

def ofQuotedDrafts : Filter where
  group := some {
    conjuncts := [⟨"title", .contains, .string "a \"b\"\n"⟩]
    disjuncts := [⟨"status", .equals, .string "draft"⟩,
      ⟨"author", .oneOf, .array [.int 3, .int (-4)]⟩]
    rejected := [] }
  limit := some 20
  offset := some 40
  sort := [⟨"title", .valid .descending⟩, ⟨"views", .invalid "sideways"⟩]
  rejected := []

theorem quotedDrafts_ofParameters :
    quotedDrafts.WellFormed ∧ decode quotedDrafts = .ok ofQuotedDrafts ∧
      ofQuotedDrafts.toParameters.Carries ofQuotedDrafts ∧
      ofParameters ofQuotedDrafts.toParameters defaultMaxLimit = ofQuotedDrafts := by
  have hbody : quotedDrafts.WellFormed := by
    simp [quotedDrafts, Number.InRange, Numeral.largest]
  have hread : decode quotedDrafts = .ok ofQuotedDrafts := rfl
  have hcarries := ofQuotedDrafts.carries_toParameters
  refine ⟨hbody, hread, hcarries,
    (ofParameters_of_carries (.inl ⟨_, hbody, hread⟩) ?_ ?_ ?_ ?_ ?_ hcarries).1⟩
  · rintro group ⟨⟩
    rfl
  · simp [ofQuotedDrafts, conjuncts, disjuncts]
  · rintro group ⟨⟩
    decide
  · rintro n ⟨⟩
    decide
  · rintro n ⟨⟩
    decide

end Filter

end Folio.Query
