import Folio.Json.Schema
import Folio.Proofs.Attempt

/-!
# What a shape lets through

Whatever is read by a shape is of its type. Two things more are known of it: its integers
are at most the largest of 64 bits with a sign, and the data it keeps as data is a part of
what was read, so it has each property that data hands down to its parts.
-/

namespace Folio.Json

open Attempt (bind_ok pure_ok)

mutual
/-- The integers of a value are in range, and its data has a property. -/
def Schema.Holds (p : Json → Prop) : (schema : Schema) → schema.Value → Prop
  | .any, value => p value
  | .string, _ => True
  | .integer, n => n ≤ Number.integerLimit
  | .optional schema, value => ∀ v ∈ value, schema.Holds p v
  | .list schema, values => ∀ v ∈ values, schema.Holds p v
  | .record _ fields, values => fields.Holds p values
def Layout.Holds (p : Json → Prop) : (fields : Layout) → fields.Values → Prop
  | .nil, () => True
  | .cons _ true schema rest, (value, others) => schema.Holds p value ∧ rest.Holds p others
  | .cons _ false schema rest, (value, others) =>
    (∀ v ∈ value, schema.Holds p v) ∧ rest.Holds p others
end

def Layout.Met (p : Json → Prop) : (fields : Layout) → fields.Partial → Prop
  | .nil, () => True
  | .cons _ _ schema rest, (value, others) => (∀ v ∈ value, schema.Holds p v) ∧ rest.Met p others

/-- The fields of a record. -/
abbrev Schema.layout : Schema → Layout
  | .record _ fields => fields
  | _ => .nil

/-- A property that data hands down to its parts. -/
structure Hereditary (p : Json → Prop) : Prop where
  item : ∀ {items : List Json}, p (.array items) → ∀ item ∈ items, p item
  member : ∀ {members : Members}, p (.object members) → ∀ m ∈ members, p m.2

-- ---------------------------------------------------------------------------
-- Members
-- ---------------------------------------------------------------------------

theorem Layout.met_noneMet (p : Json → Prop) : (fields : Layout) → fields.Met p fields.noneMet
  | .nil => trivial
  | .cons _ _ _ rest => ⟨by simp, rest.met_noneMet p⟩

theorem Layout.holds_complete {p : Json → Prop} {fields : Layout} {met : fields.Partial}
    {values : fields.Values} (h : fields.Met p met) (hc : fields.complete met = .ok values) :
    fields.Holds p values := by
  match fields, met, values with
  | .nil, (), () => trivial
  | .cons name required schema rest, (value, others), values =>
    obtain ⟨hv, ho⟩ := h
    cases required with
    | false =>
      simp only [complete, bind_ok, pure_ok] at hc
      obtain ⟨done, hd, rfl⟩ := hc
      exact ⟨hv, holds_complete ho hd⟩
    | true =>
      cases value with
      | none => cases hc
      | some value =>
        simp only [complete, bind_ok, pure_ok] at hc
        obtain ⟨done, hd, rfl⟩ := hc
        exact ⟨hv value rfl, holds_complete ho hd⟩

theorem Layout.decodeMember_here {name : String} {required : Bool} {schema : Schema}
    {rest : Layout} {found : Option schema.Value} {others : rest.Partial} {value : Json}
    {read : schema.Value} (h : schema.decode value = .ok read) :
    (cons name required schema rest).decodeMember (found, others) name value =
      .ok (some read, others) := by
  simp only [decodeMember, h, if_pos]
  rfl

theorem Layout.decodeMember_there {name key : String} {required : Bool} {schema : Schema}
    {rest : Layout} {found : Option schema.Value} {others next : rest.Partial} {value : Json}
    (hk : key ≠ name) (h : rest.decodeMember others key value = .ok next) :
    (cons name required schema rest).decodeMember (found, others) key value =
      .ok (found, next) := by
  simp only [decodeMember, h, if_neg hk]
  rfl

theorem decodeMembers_append {σ : Type} {member : σ → String → Json → Except Mismatch σ}
    {state next : σ} {members others : Members}
    (h : decodeMembers member state members = .ok next) :
    decodeMembers member state (members ++ others) = decodeMembers member next others := by
  rw [decodeMembers, List.foldlM_append]
  exact congrArg (· >>= _) h

theorem toInteger_int {n : Int} (h : n ≤ Number.integerLimit) : toInteger (.int n) = .ok n :=
  if_neg (by omega)

theorem le_of_toInteger {n : Number} {i : Int} (h : toInteger n = .ok i) :
    i ≤ Number.integerLimit := by
  cases n with
  | int n =>
    simp only [toInteger] at h
    split at h
    · cases h
    · cases h
      omega
  | float x => cases h

theorem forall_of_decodeItems {α : Type} {item : Json → Except Mismatch α} {q : α → Prop}
    {items : List Json} (hi : ∀ value ∈ items, ∀ a, item value = .ok a → q a) {values : List α}
    (h : decodeItems item items = .ok values) : ∀ a ∈ values, q a := by
  induction items generalizing values with
  | nil =>
    cases h
    simp
  | cons value items ih =>
    obtain ⟨hv, hr⟩ := List.forall_mem_cons.mp hi
    simp only [decodeItems, List.mapM_cons, bind_ok, pure_ok] at h
    obtain ⟨a, ha, rest, hrest, rfl⟩ := h
    exact List.forall_mem_cons.mpr ⟨hv a ha, ih hr hrest⟩

theorem holds_of_decodeMembers {σ : Type} {member : σ → String → Json → Except Mismatch σ}
    {q : σ → Prop} {members : Members}
    (hm : ∀ m ∈ members, ∀ state next, q state → member state m.1 m.2 = .ok next → q next)
    {state last : σ} (hq : q state) (h : decodeMembers member state members = .ok last) :
    q last := by
  induction members generalizing state with
  | nil =>
    cases h
    exact hq
  | cons m members ih =>
    obtain ⟨hf, hr⟩ := List.forall_mem_cons.mp hm
    simp only [decodeMembers, List.foldlM_cons, bind_ok] at h
    obtain ⟨next, hn, h⟩ := h
    exact ih hr (hf state next hq hn) h

-- ---------------------------------------------------------------------------
-- Values of a shape
-- ---------------------------------------------------------------------------

variable {p : Json → Prop}

mutual
theorem Schema.holds_of_decode (hp : Hereditary p) : {schema : Schema} → {value : Json} →
    {read : schema.Value} → p value → schema.decode value = .ok read → schema.Holds p read
  | .any, value, read, h, hd => by
    cases hd
    exact h
  | .string, _, _, _, _ => trivial
  | .integer, value, read, h, hd => by
    cases value with
    | number n => exact le_of_toInteger hd
    | _ => cases hd
  | .optional schema, value, read, h, hd => by
    have hsome (hd : (do return some (← schema.decode value)) = Except.ok read) :
        ∀ v ∈ read, schema.Holds p v := by
      simp only [bind_ok, pure_ok] at hd
      obtain ⟨inner, hi, rfl⟩ := hd
      intro v hv
      cases hv
      exact schema.holds_of_decode hp h hi
    cases value with
    | null =>
      cases hd
      simp [Schema.Holds]
    | _ => exact hsome hd
  | .list schema, value, read, h, hd => by
    cases value with
    | array items =>
      refine forall_of_decodeItems (fun item hi a ha => ?_) hd
      exact schema.holds_of_decode hp (hp.item h item hi) ha
    | _ => cases hd
  | .record name fields, value, read, h, hd => by
    cases value with
    | array items => exact fields.holds_of_decodeList hp (hp.item h) hd
    | object members =>
      simp only [Schema.decode, bind_ok] at hd
      obtain ⟨met, hm, hc⟩ := hd
      refine Layout.holds_complete (holds_of_decodeMembers ?_ (fields.met_noneMet p) hm) hc
      intro m hm state next hs hn
      exact fields.met_decodeMember hp (hp.member h m hm) hs hn
    | _ => cases hd
theorem Layout.met_decodeMember (hp : Hereditary p) : {fields : Layout} →
    {met next : fields.Partial} → {key : String} → {value : Json} → p value → fields.Met p met →
      fields.decodeMember met key value = .ok next → fields.Met p next
  | .nil, _, _, _, _, _, _, _ => trivial
  | .cons name required schema rest, (found, others), next, key, value, h, hm, hd => by
    simp only [Layout.decodeMember] at hd
    split at hd
    · simp only [bind_ok, pure_ok] at hd
      obtain ⟨inner, hi, rfl⟩ := hd
      refine ⟨?_, hm.2⟩
      intro v hv
      cases hv
      exact schema.holds_of_decode hp h hi
    · simp only [bind_ok, pure_ok] at hd
      obtain ⟨inner, hi, rfl⟩ := hd
      exact ⟨hm.1, rest.met_decodeMember hp h hm.2 hi⟩
theorem Layout.holds_of_decodeList (hp : Hereditary p) : {fields : Layout} → {record : String} →
    {size length : Nat} → {items : List Json} → {values : fields.Values} →
      (∀ item ∈ items, p item) → fields.decodeList record size length items = .ok values →
        fields.Holds p values
  | .nil, _, _, _, _, _, _, _ => trivial
  | .cons name false schema rest, record, size, length, items, values, h, hd => by
    cases items with
    | nil =>
      simp only [Layout.decodeList, bind_ok, pure_ok] at hd
      obtain ⟨others, ho, rfl⟩ := hd
      exact ⟨by simp, rest.holds_of_decodeList hp h ho⟩
    | cons item items =>
      obtain ⟨hi, hr⟩ := List.forall_mem_cons.mp h
      simp only [Layout.decodeList, bind_ok, pure_ok] at hd
      obtain ⟨value, hv, others, ho, rfl⟩ := hd
      refine ⟨?_, rest.holds_of_decodeList hp hr ho⟩
      intro v hm
      cases hm
      exact schema.holds_of_decode hp hi hv
  | .cons name true schema rest, record, size, length, items, values, h, hd => by
    cases items with
    | nil => cases hd
    | cons item items =>
      obtain ⟨hi, hr⟩ := List.forall_mem_cons.mp h
      simp only [Layout.decodeList, bind_ok, pure_ok] at hd
      obtain ⟨value, hv, others, ho, rfl⟩ := hd
      exact ⟨schema.holds_of_decode hp hi hv, rest.holds_of_decodeList hp hr ho⟩
end

end Folio.Json
