import Folio.Proofs.Json.Shape
import Folio.Query.Codec
import Folio.Query.Result

/-!
# Written filters

A filter that was read can be written and read again. Nothing is lost but the messages of
its rejected parts, which are not written: names without a meaning come back as they were,
because reading never keeps a name with a meaning as one without.
-/

namespace Folio.Query

open Attempt (map_ok)
open Json (Hereditary Schema Layout Mismatch decodeMembers decodeMembers_append)

-- ---------------------------------------------------------------------------
-- What reading leaves
-- ---------------------------------------------------------------------------

structure Condition.Legible (p : Json → Prop) (condition : Condition) : Prop where
  operator : Operator.ofName condition.operator.name = condition.operator
  operand : p condition.operand

/-- What is known of a filter that was read, where `p` is known of the data. -/
structure Filter.Legible (p : Json → Prop) (filter : Filter) : Prop where
  conjunct : ∀ condition ∈ filter.conjuncts, condition.Legible p
  disjunct : ∀ condition ∈ filter.disjuncts, condition.Legible p
  order : ∀ key ∈ filter.sort, SortOrder.ofName key.order.name = key.order
  limit : ∀ n ∈ filter.limit, n ≤ Number.integerLimit
  offset : ∀ n ∈ filter.offset, n ≤ Number.integerLimit
  rejected : filter.rejected = []

section
variable {p : Json → Prop}

theorem Condition.legible_of_decode (hp : Hereditary p) (hn : p .null) {value : Json}
    (hv : p value) {condition : Condition} (h : decode value = .ok condition) :
    condition.Legible p := by
  obtain ⟨⟨field, operator, operand, ⟨⟩⟩, hf, rfl⟩ := map_ok.mp h
  obtain ⟨-, -, ho, -⟩ := Schema.holds_of_decode hp hv hf
  refine ⟨?_, ?_⟩
  · show Operator.ofName (Operator.ofName operator).name = Operator.ofName operator
    rw [Operator.name_ofName]
  · cases operand with
    | none => exact hn
    | some operand => exact ho operand rfl

theorem SortKey.ofName_name_order (fields : sortKeySchema.Value) :
    SortOrder.ofName (ofFields fields).order.name = (ofFields fields).order := by
  obtain ⟨field, order, ⟨⟩⟩ := fields
  cases order with
  | none => exact SortOrder.ofName_name .ascending
  | some order => exact SortOrder.ofName_name_ofName order

theorem exists_of_mem_ofItems {α β : Type} {read : β → Except Mismatch α}
    {reject : Nat → Mismatch → Rejection} {items : List β} {a : α}
    (h : a ∈ (Sorted.ofItems read reject items).kept) : ∃ item ∈ items, read item = .ok a := by
  simp only [Sorted.ofItems, List.mem_filterMap, List.mem_mapIdx] at h
  obtain ⟨attempt, ⟨index, hi, rfl⟩, ha⟩ := h
  refine ⟨items[index], List.getElem_mem hi, ?_⟩
  cases hr : read items[index] with
  | error m =>
    rw [hr] at ha
    cases ha
  | ok b =>
    rw [hr] at ha
    cases ha
    rfl

theorem Clause.legible_of_read (hp : Hereditary p) (hn : p .null) {clause : Clause}
    {value : Option Json} (hv : ∀ v ∈ value, p v) {condition : Condition}
    (hc : condition ∈ (clause.read (value.getD .null)).kept) : condition.Legible p := by
  rcases value with _ | value
  · cases hc
  · cases value with
    | array items =>
      obtain ⟨item, hi, hr⟩ := exists_of_mem_ofItems hc
      exact Condition.legible_of_decode hp hn (hp.item (hv _ rfl) item hi) hr
    | _ => cases hc

theorem Filter.legible_ofFields (hp : Hereditary p) (hn : p .null) {fields : filterSchema.Value}
    (h : filterSchema.Holds p fields) : (ofFields fields).Legible p := by
  obtain ⟨group, limit, offset, sort, ⟨⟩⟩ := fields
  obtain ⟨hg, hl, ho, -⟩ := h
  refine ⟨?_, ?_, ?_, ?_, ?_, rfl⟩
  · intro condition hc
    rcases group with _ | _ | ⟨conjuncts, disjuncts, ⟨⟩⟩
    · cases hc
    · cases hc
    · exact Clause.legible_of_read hp hn (hg _ rfl _ rfl).1 hc
  · intro condition hc
    rcases group with _ | _ | ⟨conjuncts, disjuncts, ⟨⟩⟩
    · cases hc
    · cases hc
    · exact Clause.legible_of_read hp hn (hg _ rfl _ rfl).2.1 hc
  · intro key hk
    obtain ⟨fields, -, rfl⟩ := List.mem_map.mp hk
    exact SortKey.ofName_name_order fields
  · intro n hm
    obtain rfl : limit = some (some n) := Option.join_eq_some_iff.mp hm
    exact hl _ rfl _ rfl
  · intro n hm
    obtain rfl : offset = some (some n) := Option.join_eq_some_iff.mp hm
    exact ho _ rfl _ rfl

theorem Filter.legible_of_decode (hp : Hereditary p) (hn : p .null) {value : Json} (hv : p value)
    {filter : Filter} (h : decode value = .ok filter) : filter.Legible p := by
  obtain ⟨fields, hf, rfl⟩ := map_ok.mp h
  exact legible_ofFields hp hn (Schema.holds_of_decode hp hv hf)

end

-- ---------------------------------------------------------------------------
-- Members that may be left out
-- ---------------------------------------------------------------------------

/-- A list that is left out when it is empty. -/
def nonempty? {α : Type} (items : List α) : Option (List α) :=
  if items.isEmpty then none else some items

def listOf {α : Type} (write : α → Json) (items : List α) : Json :=
  .array (items.map write)

theorem listMember_map {α : Type} (key : String) (write : α → Json) (items : List α) :
    listMember key (items.map write) =
      optionalMember key ((nonempty? items).map (listOf write)) := by
  cases items <;> rfl

theorem decodeMembers_optionalMember {α σ : Type} {member : σ → String → Json → Except Mismatch σ}
    {state next : σ} {key : String} {write : α → Json} {value : Option α}
    (hn : value = none → state = next)
    (h : ∀ a, value = some a → member state key (write a) = .ok next) :
    decodeMembers member state (optionalMember key (value.map write)) = .ok next := by
  cases value with
  | none => exact congrArg Except.ok (hn rfl)
  | some a =>
    have ha := h a rfl
    simp [decodeMembers, optionalMember, ha]

-- ---------------------------------------------------------------------------
-- Reading what was written
-- ---------------------------------------------------------------------------

theorem Condition.decode_encode {condition : Condition}
    (h : Operator.ofName condition.operator.name = condition.operator) :
    decode condition.encode = .ok condition := by
  have hfields : conditionSchema.decode condition.encode =
      .ok (condition.field, condition.operator.name, some condition.operand, ()) := rfl
  rw [decode, hfields]
  show Except.ok (⟨condition.field, .ofName condition.operator.name, _⟩ : Condition) = _
  rw [h]
  rfl

def SortKey.fields (key : SortKey) : sortKeySchema.Value :=
  (key.field, some key.order.name, ())

theorem SortKey.ofFields_fields {key : SortKey}
    (h : SortOrder.ofName key.order.name = key.order) : ofFields key.fields = key := by
  show (⟨key.field, .ofName key.order.name⟩ : SortKey) = _
  rw [h]

theorem SortKey.decode_encode {key : SortKey}
    (h : SortOrder.ofName key.order.name = key.order) : decode key.encode = .ok key := by
  have hfields : sortKeySchema.decode key.encode = .ok key.fields := rfl
  rw [decode, hfields]
  exact congrArg Except.ok (ofFields_fields h)

theorem decodeItems_encode (keys : List SortKey) :
    Json.decodeItems sortKeySchema.decode (keys.map SortKey.encode) =
      .ok (keys.map SortKey.fields) := by
  induction keys with
  | nil => rfl
  | cons key keys ih =>
    have hkey : sortKeySchema.decode key.encode = .ok key.fields := rfl
    simp only [Json.decodeItems, List.map_cons, List.mapM_cons, hkey] at ih ⊢
    rw [ih]
    rfl

theorem Sorted.ofItems_map {α β : Type} {read : β → Except Mismatch α}
    {reject : Nat → Mismatch → Rejection} {write : α → β} {items : List α}
    (h : ∀ item ∈ items, read (write item) = .ok item) :
    ofItems read reject (items.map write) = ⟨items, []⟩ := by
  have hattempts : (items.map write).mapIdx (fun index item =>
      (read item).mapError (reject index)) = items.map .ok := by
    refine List.ext_getElem (by simp) fun index hi _ => ?_
    simp only [List.getElem_mapIdx, List.getElem_map, h _ (List.getElem_mem _)]
    rfl
  simp only [ofItems, hattempts, List.filterMap_map]
  congr 1
  · exact List.filterMap_some
  · exact List.filterMap_eq_nil_iff.mpr fun _ _ => rfl

theorem Clause.read_nonempty? (clause : Clause) {conditions : List Condition}
    (h : ∀ condition ∈ conditions, Operator.ofName condition.operator.name = condition.operator) :
    clause.read (((nonempty? conditions).map (listOf Condition.encode)).getD .null) =
      ⟨conditions, []⟩ := by
  cases conditions with
  | nil => rfl
  | cons condition conditions =>
    exact Sorted.ofItems_map fun condition hc => Condition.decode_encode (h condition hc)

def Group.fields (group : Group) : groupSchema.Value :=
  ((nonempty? group.conjuncts).map (listOf Condition.encode),
    (nonempty? group.disjuncts).map (listOf Condition.encode), ())

/-- A group without the messages of its rejected parts. -/
def Group.unreported (group : Group) : Group :=
  { group with rejected := [] }

theorem Group.decode_encode (group : Group) :
    groupSchema.decode group.encode = .ok group.fields := by
  obtain ⟨conjuncts, disjuncts, rejected⟩ := group
  cases conjuncts <;> cases disjuncts <;> rfl

theorem Group.ofFields_fields {p : Json → Prop} {group : Group}
    (hc : ∀ condition ∈ group.conjuncts, condition.Legible p)
    (hd : ∀ condition ∈ group.disjuncts, condition.Legible p) :
    ofFields group.fields = group.unreported := by
  simp only [ofFields, fields, Clause.read_nonempty? _ fun c h => (hc c h).operator,
    Clause.read_nonempty? _ fun c h => (hd c h).operator]
  rfl

namespace Filter

def fields (filter : Filter) : filterSchema.Value :=
  (filter.group.map fun group => some group.fields, filter.limit.map some,
    filter.offset.map some, (nonempty? filter.sort).map (List.map SortKey.fields), ())

theorem decode_int {n : Int} (h : n ≤ Number.integerLimit) :
    (Schema.optional .integer).decode (.int n) = .ok (some n) := by
  show (do return some (← Json.toInteger (.int n)) : Except Mismatch (Option Int)) = _
  rw [Json.toInteger_int h]
  rfl

theorem schema_decode_encode {filter : Filter}
    (hl : ∀ n ∈ filter.limit, n ≤ Number.integerLimit)
    (ho : ∀ n ∈ filter.offset, n ≤ Number.integerLimit) :
    filterSchema.decode filter.encode = .ok filter.fields := by
  obtain ⟨group, limit, offset, sort, rejected⟩ := filter
  have hlimit : decodeMembers filterSchema.layout.decodeMember filterSchema.layout.noneMet
      (optionalMember "limit" (limit.map Json.int)) =
        .ok (none, limit.map some, none, none, ()) := by
    refine decodeMembers_optionalMember (by rintro rfl; rfl) ?_
    rintro n rfl
    exact Layout.decodeMember_there (by decide)
      (Layout.decodeMember_here (decode_int (hl n rfl)))
  have hoffset : decodeMembers filterSchema.layout.decodeMember
      (none, limit.map some, none, none, ()) (optionalMember "offset" (offset.map Json.int)) =
        .ok (none, limit.map some, offset.map some, none, ()) := by
    refine decodeMembers_optionalMember (by rintro rfl; rfl) ?_
    rintro n rfl
    exact Layout.decodeMember_there (by decide) (Layout.decodeMember_there (by decide)
      (Layout.decodeMember_here (decode_int (ho n rfl))))
  have hsort : decodeMembers filterSchema.layout.decodeMember
      (none, limit.map some, offset.map some, none, ())
      (optionalMember "sort" ((nonempty? sort).map (listOf SortKey.encode))) =
        .ok (none, limit.map some, offset.map some,
          (nonempty? sort).map (List.map SortKey.fields), ()) := by
    refine decodeMembers_optionalMember (fun h => by rw [h]; rfl) fun keys h => ?_
    rw [h]
    exact Layout.decodeMember_there (by decide) (Layout.decodeMember_there (by decide)
      (Layout.decodeMember_there (by decide)
        (Layout.decodeMember_here (decodeItems_encode keys))))
  have hgroup : decodeMembers filterSchema.layout.decodeMember
      (none, limit.map some, offset.map some, (nonempty? sort).map (List.map SortKey.fields), ())
      (optionalMember "where" (group.map Group.encode)) =
        .ok (fields ⟨group, limit, offset, sort, rejected⟩) := by
    refine decodeMembers_optionalMember (by rintro rfl; rfl) ?_
    rintro group rfl
    refine Layout.decodeMember_here ?_
    show (do return some (← groupSchema.decode group.encode) : Except Mismatch _) = _
    rw [group.decode_encode]
    rfl
  have hall := (decodeMembers_append ((decodeMembers_append
    ((decodeMembers_append hlimit).trans hoffset)).trans hsort)).trans hgroup
  show (decodeMembers _ _ (_ ++ listMember "sort" (sort.map SortKey.encode) ++ _)).bind _ = _
  rw [listMember_map]
  exact congrArg (Except.bind · _) hall

/-- A filter without the messages of the rejected parts of its group. -/
def unreported (filter : Filter) : Filter :=
  { filter with group := filter.group.map Group.unreported }

theorem ofFields_fields {p : Json → Prop} {filter : Filter} (h : filter.Legible p) :
    ofFields filter.fields = filter.unreported := by
  obtain ⟨group, limit, offset, sort, rejected⟩ := filter
  obtain rfl : rejected = [] := h.rejected
  have hsort : (((nonempty? sort).map (List.map SortKey.fields)).getD []).map SortKey.ofFields =
      sort := by
    cases sort with
    | nil => rfl
    | cons key keys =>
      show ((key :: keys).map SortKey.fields).map SortKey.ofFields = key :: keys
      rw [List.map_map]
      exact (List.map_congr_left fun key hk => SortKey.ofFields_fields (h.order key hk)).trans
        (List.map_id _)
  have hgroup : (group.map fun group => some group.fields).join.map Group.ofFields =
      group.map Group.unreported := by
    cases group with
    | none => rfl
    | some group => exact congrArg some (Group.ofFields_fields h.conjunct h.disjunct)
  have hpage (n : Option Int) : (n.map some).join = n := by
    cases n <;> rfl
  simp only [ofFields, fields, hsort, hgroup, hpage]
  rfl

theorem decode_encode {p : Json → Prop} {filter : Filter} (h : filter.Legible p) :
    decode filter.encode = .ok filter.unreported := by
  rw [decode, schema_decode_encode h.limit h.offset]
  exact congrArg Except.ok (ofFields_fields h)

theorem statement_unreported (filter : Filter) (table : String) :
    filter.unreported.statement table = filter.statement table := by
  obtain ⟨group, limit, offset, sort, rejected⟩ := filter
  cases group <;> rfl

theorem errors_unreported {filter : Filter} (h : filter.rejected = []) :
    filter.errors = (filter.group.map Group.rejected).getD [] ++ filter.unreported.errors := by
  obtain ⟨group, limit, offset, sort, rejected⟩ := filter
  obtain rfl : rejected = [] := h
  cases group <;> rfl

/-- Whatever filter is read from data, writing it and reading it again gives it back, without
the messages of what could not be read. It then compiles to the same statement, and the
messages it still has are those of what does not compile. -/
theorem decode_encode_of_decode {value : Json} {filter : Filter}
    (h : decode value = .ok filter) :
    decode filter.encode = .ok filter.unreported ∧
      ∀ table, (filter.unreported.compile table).sql = (filter.compile table).sql ∧
        (filter.unreported.compile table).params = (filter.compile table).params ∧
        (filter.compile table).errors =
          (filter.group.map Group.rejected).getD [] ++
            (filter.unreported.compile table).errors := by
  have hlegible : filter.Legible fun _ => True :=
    legible_of_decode ⟨fun _ _ _ => trivial, fun _ _ _ => trivial⟩ trivial trivial h
  refine ⟨decode_encode hlegible, fun table => ⟨?_, ?_, errors_unreported hlegible.rejected⟩⟩
  · exact congrArg Statement.sql (filter.statement_unreported table)
  · exact congrArg Statement.params (filter.statement_unreported table)

/-- A filter written as a list of its fields. Its names are in an unusual case or unknown, and
one of its conditions is a number. -/
def positional : Json :=
  .array [
    .object [("and", .array [
      .array [.string "title", .string "Equals", .string "a"],
      .object [("field", .string "views"), ("operator", .string "greater_than"),
        ("value", .int 3)],
      .int 5])],
    .int 10,
    .null,
    .array [.array [.string "title", .string "DESC"],
      .object [("field", .string "views"), ("order", .string "sideways")]]]

def ofPositional : Filter where
  group := some {
    conjuncts := [⟨"title", .unknown "Equals", .string "a"⟩, ⟨"views", .greaterThan, .int 3⟩]
    disjuncts := []
    rejected := [
      "Invalid condition and[2]: invalid type: integer `5`, expected struct FilterCondition"] }
  limit := some 10
  offset := none
  sort := [⟨"title", .valid .descending⟩, ⟨"views", .invalid "sideways"⟩]
  rejected := []

theorem positional_decode_encode :
    decode positional = .ok ofPositional ∧
      decode ofPositional.encode = .ok ofPositional.unreported ∧
      (ofPositional.compile "posts").errors =
        (ofPositional.group.map Group.rejected).getD [] ++
          (ofPositional.unreported.compile "posts").errors := by
  have hread : decode positional = .ok ofPositional := rfl
  obtain ⟨hagain, hcompiled⟩ := decode_encode_of_decode hread
  obtain ⟨-, -, herrors⟩ := hcompiled "posts"
  exact ⟨hread, hagain, herrors⟩

end Filter

end Folio.Query
