import Folio.Json.Schema.Reader
import Folio.Proofs.Json.Steps

/-!
# Data that can be read

Data read from text has numbers of 64 bits and its members in increasing key order. So has
what a shape keeps of a text.
-/

namespace Folio

/-- Integers fit 64 bits, with a sign when they are negative. -/
def Number.InRange : Number → Prop
  | .int n => -(Numeral.largest 63 + 1 : Int) ≤ n ∧ n ≤ (Numeral.largest 64 : Int)
  | .float _ => True

instance (n : Number) : Decidable n.InRange :=
  match n with
  | .int _ => inferInstanceAs (Decidable (_ ∧ _))
  | .float _ => inferInstanceAs (Decidable True)

namespace Json

open Attempt (map_ok)
open Reading

/-- Every key is less than the keys behind it. -/
def Members.Sorted (members : Members) : Prop :=
  members.Pairwise fun m later => m.1 < later.1

inductive WellFormed : Json → Prop
  | null : WellFormed .null
  | bool (b : Bool) : WellFormed (.bool b)
  | number {n : Number} (h : n.InRange) : WellFormed (.number n)
  | string (s : String) : WellFormed (.string s)
  | array {items : List Json} (h : ∀ item ∈ items, item.WellFormed) : WellFormed (.array items)
  | object {members : Members} (hs : members.Sorted) (h : ∀ m ∈ members, m.2.WellFormed) :
    WellFormed (.object members)

@[simp] theorem wellFormed_int {n : Int} : (int n).WellFormed ↔ (Number.int n).InRange :=
  ⟨fun | .number h => h, .number⟩

@[simp] theorem wellFormed_string (s : String) : (Json.string s).WellFormed :=
  .string s

@[simp] theorem wellFormed_array {items : List Json} :
    (array items).WellFormed ↔ ∀ item ∈ items, item.WellFormed :=
  ⟨fun | .array h => h, .array⟩

@[simp] theorem wellFormed_object {members : Members} :
    (object members).WellFormed ↔ members.Sorted ∧ ∀ m ∈ members, m.2.WellFormed :=
  ⟨fun | .object hs h => ⟨hs, h⟩, fun h => .object h.1 h.2⟩

theorem hereditary_wellFormed : Hereditary WellFormed :=
  ⟨wellFormed_array.mp, fun h => (wellFormed_object.mp h).2⟩

-- ---------------------------------------------------------------------------
-- Members in order
-- ---------------------------------------------------------------------------

theorem Members.sorted_of_keys {members : Members}
    (h : (members.map Prod.fst).Pairwise (· < ·)) : members.Sorted :=
  List.pairwise_map.mp h

theorem Members.eq_or_mem_of_mem_insert {members : Members} {key : String} {value : Json}
    {m : String × Json} (h : m ∈ members.insert key value) : m = (key, value) ∨ m ∈ members := by
  induction members with
  | nil => simpa [insert] using h
  | cons first rest ih =>
    rw [insert] at h
    split at h
    · simpa using h
    · split at h
      · rcases List.mem_cons.mp h with rfl | h
        · exact .inl rfl
        · exact .inr (List.mem_cons_of_mem _ h)
      · rcases List.mem_cons.mp h with rfl | h
        · exact .inr List.mem_cons_self
        · exact (ih h).imp_right (List.mem_cons_of_mem _)

theorem Members.Sorted.insert {members : Members} (h : members.Sorted) (key : String)
    (value : Json) : (members.insert key value).Sorted := by
  induction members with
  | nil => simp [Members.insert, Sorted]
  | cons first rest ih =>
    obtain ⟨hf, hr⟩ := List.pairwise_cons.mp h
    rw [Members.insert]
    split
    · next hlt =>
      refine List.pairwise_cons.mpr ⟨?_, h⟩
      intro m hm
      rcases List.mem_cons.mp hm with rfl | hm
      · exact hlt
      · exact String.lt_trans hlt (hf m hm)
    · split
      · next heq =>
        refine List.pairwise_cons.mpr ⟨?_, hr⟩
        intro m hm
        exact heq ▸ hf m hm
      · next hlt hne =>
        refine List.pairwise_cons.mpr ⟨?_, ih hr⟩
        intro m hm
        rcases eq_or_mem_of_mem_insert hm with rfl | hm
        · exact String.not_le.mp fun hle => hne (String.le_antisymm hle (String.not_lt.mp hlt))
        · exact hf m hm

/-- Behind smaller keys a member goes to the end. -/
theorem Members.insert_eq_append {members : Members} {key : String}
    (h : ∀ m ∈ members, m.1 < key) (value : Json) :
    members.insert key value = members ++ [(key, value)] := by
  induction members with
  | nil => rfl
  | cons first rest ih =>
    obtain ⟨hf, hr⟩ := List.forall_mem_cons.mp h
    have hne : key ≠ first.1 := by
      rintro rfl
      exact String.lt_irrefl _ hf
    rw [insert, if_neg (String.lt_asymm hf), if_neg hne, ih hr]
    rfl

-- ---------------------------------------------------------------------------
-- What is read as data
-- ---------------------------------------------------------------------------

theorem NumberParts.inRange_integer? {parts : NumberParts} {n : Int}
    (h : parts.integer? = some n) : (Number.int n).InRange := by
  simp only [integer?, Bool.and_eq_true, decide_eq_true_eq] at h
  split at h
  · cases h
  · split at h
    · split at h
      · cases h
        exact ⟨by omega, by omega⟩
      · cases h
    · split at h
      · cases h
        exact ⟨by omega, by omega⟩
      · cases h

theorem NumberParts.inRange_number {parts : NumberParts} {n : Number}
    (h : parts.number = .ok n) : n.InRange := by
  cases n with
  | float x => trivial
  | int i =>
    simp only [number] at h
    split at h
    · next hi =>
      cases h
      exact inRange_integer? hi
    · split at h
      · split at h <;> cases h
      · split at h <;> cases h

theorem yields_readNumber : Yields readNumber Number.InRange := by
  refine yields_bind fun parts => ?_
  split
  · next n hn => exact yields_pure (NumberParts.inRange_number hn)
  · exact yields_failBack _ _

theorem yields_readItems {α : Type} {item : Reading α} {p : α → Prop} (h : Yields item p) :
    Yields (readItems item) fun items => ∀ a ∈ items, p a := by
  have hstep (before : List α) (hb : ∀ a ∈ before, p a) :
      Yields (do if ← hasItem before.isEmpty then return some ((← item) :: before) else return none)
        fun next : Option (List α) => ∀ items ∈ next, ∀ a ∈ items, p a := by
    refine yields_bind fun more => ?_
    cases more with
    | false => exact yields_pure (by simp)
    | true =>
      refine h.bind fun a ha => yields_pure ?_
      rintro items ⟨⟩
      exact List.forall_mem_cons.mpr ⟨ha, hb⟩
  refine (yields_iterate hstep (by simp)).bind fun reversed hr => ?_
  refine yields_bind fun _ => yields_pure fun a ha => hr a (List.mem_reverse.mp ha)

theorem yields_readMembers {value : Reading Json} (h : Yields value WellFormed) :
    Yields (readMembers value) fun members => members.Sorted ∧ ∀ m ∈ members, m.2.WellFormed := by
  refine (yields_iterate (q := fun state =>
    Members.Sorted state.2 ∧ ∀ m ∈ state.2, m.2.WellFormed) ?_ ?_).bind ?_
  · rintro ⟨first, members⟩ ⟨hs, hm⟩
    refine yields_bind fun more => ?_
    cases more with
    | false => exact yields_pure (by simp)
    | true =>
      refine yields_bind fun key => yields_bind fun _ => h.bind fun a ha => yields_pure ?_
      rintro state ⟨⟩
      refine ⟨hs.insert key a, fun m hi => ?_⟩
      rcases Members.eq_or_mem_of_mem_insert hi with rfl | hi
      · exact ha
      · exact hm m hi
  · exact ⟨List.Pairwise.nil, by simp⟩
  · rintro ⟨first, members⟩ hm
    exact yields_bind fun _ => yields_pure hm

/-- One level of brackets; the data inside of them is read with less allowance. -/
theorem yields_readValue_of {allowance : Nat}
    (h : ∀ rest, allowance = rest + 1 → Yields (readValue rest) WellFormed) :
    Yields (readValue allowance) WellFormed := by
  unfold readValue
  refine yields_bind fun next => ?_
  split
  · exact yields_ended _
  · exact yields_bind fun _ => yields_bind fun _ => yields_pure .null
  · exact yields_bind fun _ => yields_bind fun _ => yields_pure (.bool true)
  · exact yields_bind fun _ => yields_bind fun _ => yields_pure (.bool false)
  · exact yields_bind fun _ => yields_bind fun s => yields_pure (.string s)
  · split
    · exact yields_refuse _
    · refine yields_bind fun _ => (yields_readItems (h _ rfl)).bind fun items hi => ?_
      exact yields_pure (.array hi)
  · split
    · exact yields_refuse _
    · refine yields_bind fun _ => (yields_readMembers (h _ rfl)).bind fun members hm => ?_
      exact yields_pure (.object hm.1 hm.2)
  · split
    · exact yields_readNumber.bind fun n hn => yields_pure (.number hn)
    · exact yields_refuse _

theorem yields_readValue (allowance : Nat) : Yields (readValue allowance) WellFormed := by
  induction allowance with
  | zero => exact yields_readValue_of (by rintro rest ⟨⟩)
  | succ allowance ih =>
    refine yields_readValue_of ?_
    rintro rest ⟨⟩
    exact ih

-- ---------------------------------------------------------------------------
-- What is read by a shape
-- ---------------------------------------------------------------------------

theorem yields_readUnexpected {α : Type} {p : α → Prop} (expected : Expected) (c : Char) :
    Yields (readUnexpected expected c) p := by
  unfold readUnexpected
  split
  · exact yields_bind fun _ => yields_bind fun _ => yields_mismatch _
  · exact yields_bind fun _ => yields_bind fun _ => yields_mismatch _
  · exact yields_bind fun _ => yields_bind fun _ => yields_mismatch _
  · exact yields_bind fun _ => yields_bind fun _ => yields_mismatch _
  · exact yields_mismatch _
  · exact yields_mismatch _
  · split
    · exact yields_bind fun _ => yields_mismatch _
    · exact yields_refuse _

theorem yields_ofExcept {α : Type} {p : α → Prop} {attempt : Except Mismatch α}
    (h : ∀ a, attempt = .ok a → p a) : Yields (ofExcept attempt) p := by
  cases attempt with
  | error m => exact yields_mismatch _
  | ok a => exact yields_pure (h a rfl)

mutual
theorem Schema.yields_read : (schema : Schema) → (allowance : Nat) →
    Yields (schema.read allowance) (schema.Holds WellFormed)
  | .any, allowance => yields_readValue allowance
  | .string, _ => fun _ _ _ _ => trivial
  | .integer, _ => by
    unfold Schema.read
    refine yields_bind fun next => ?_
    split
    · exact yields_ended _
    · split
      · exact yields_bind fun n => yields_ofExcept fun i hi => le_of_toInteger hi
      · exact yields_readUnexpected _ _
  | .optional schema, allowance => by
    unfold Schema.read
    refine yields_bind fun next => ?_
    split
    · exact yields_bind fun _ => yields_bind fun _ => yields_pure (by simp [Schema.Holds])
    · refine (schema.yields_read allowance).bind fun value hv => yields_pure ?_
      rintro inner ⟨⟩
      exact hv
  | .list schema, allowance => by
    unfold Schema.read
    refine yields_bind fun next => ?_
    split
    · exact yields_ended _
    · split
      · exact yields_refuse _
      · exact yields_bind fun _ => yields_readItems (schema.yields_read _)
    · exact yields_readUnexpected _ _
  | .record name fields, allowance => by
    unfold Schema.read
    refine yields_bind fun next => ?_
    split
    · exact yields_ended _
    · split
      · exact yields_refuse _
      · refine yields_bind fun _ => (fields.yields_readList _ _).bind fun values hv => ?_
        refine yields_bind fun _ => ?_
        split
        · exact yields_pure (hv _ rfl)
        · exact yields_mismatch _
    · split
      · exact yields_refuse _
      · refine yields_bind fun _ => ?_
        refine (yields_iterate (q := fun state => fields.Met WellFormed state.2) ?_
          (fields.met_noneMet _)).bind ?_
        · rintro ⟨first, met⟩ hm
          refine yields_bind fun more => ?_
          split
          · refine yields_bind fun key => (fields.yields_readMember _ hm key).bind fun next hn => ?_
            refine yields_pure ?_
            rintro state ⟨⟩
            exact hn
          · exact yields_pure (by simp)
        · rintro ⟨first, met⟩ hm
          exact yields_bind fun _ => yields_ofExcept fun values hv => Layout.holds_complete hm hv
    · exact yields_readUnexpected _ _
theorem Layout.yields_readMember : (fields : Layout) → (allowance : Nat) →
    {met : fields.Partial} → fields.Met WellFormed met → (key : String) →
      Yields (fields.readMember allowance met key) (fields.Met WellFormed)
  | .nil, _, _, _, _ => fun _ _ _ _ => trivial
  | .cons name _ schema rest, allowance, (value, others), hm, key => by
    unfold Layout.readMember
    split
    · split
      · exact yields_bind fun _ => yields_fail _ _
      · refine yields_bind fun _ => (schema.yields_read allowance).bind fun read hr => ?_
        refine yields_pure ⟨?_, hm.2⟩
        rintro inner ⟨⟩
        exact hr
    · exact (rest.yields_readMember allowance hm.2 key).bind fun next hn =>
        yields_pure ⟨hm.1, hn⟩
theorem Layout.yields_readList : (fields : Layout) → (allowance count : Nat) →
    Yields (fields.readList allowance count)
      fun read => ∀ values, read = .ok values → fields.Holds WellFormed values
  | .nil, _, _ => fun _ _ _ _ _ _ => trivial
  | .cons name false schema rest, allowance, count => by
    rw [Layout.readList]
    refine yields_bind fun more => ?_
    split
    · refine (schema.yields_read allowance).bind fun value hv => ?_
      refine (rest.yields_readList allowance _).bind fun others ho => yields_pure ?_
      intro values h
      obtain ⟨left, rfl, rfl⟩ := map_ok.mp h
      refine ⟨?_, ho _ rfl⟩
      rintro inner ⟨⟩
      exact hv
    · refine (rest.yields_readList allowance _).bind fun others ho => yields_pure ?_
      intro values h
      obtain ⟨left, rfl, rfl⟩ := map_ok.mp h
      exact ⟨by simp, ho _ rfl⟩
  | .cons name true schema rest, allowance, count => by
    rw [Layout.readList]
    refine yields_bind fun more => ?_
    split
    · refine (schema.yields_read allowance).bind fun value hv => ?_
      refine (rest.yields_readList allowance _).bind fun others ho => yields_pure ?_
      intro values h
      obtain ⟨left, rfl, rfl⟩ := map_ok.mp h
      exact ⟨hv, ho _ rfl⟩
    · exact yields_pure (by rintro values ⟨⟩)
end

theorem Schema.holds_of_parse {schema : Schema} {text : String} {value : schema.Value}
    (h : schema.parse text = .ok value) : schema.Holds WellFormed value :=
  (schema.yields_read maxNesting).of_run h

end Json

end Folio
