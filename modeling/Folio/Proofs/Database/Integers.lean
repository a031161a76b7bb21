import Folio.Database.Rows
import Folio.Proofs.Decimal.Nearest
import Folio.Proofs.Json.Apart
import Folio.Proofs.Json.Members

/-!
# Integers in a database

An integer of 64 bits with a sign is stored as it is and read back as it is. The integers above
those are stored as the doubles nearest to them, which are multiples of 2048, so some of them
cannot be told apart in a row any more.
-/

namespace Folio.Database

open Decimal (Double)
open Decimal.Extended (nearest)
open Json (Members)

-- ---------------------------------------------------------------------------
-- Stored integers
-- ---------------------------------------------------------------------------

section
variable {m n : Int}

theorem Stored.bind_int_of_le (h : n ≤ Number.integerLimit) : bind (.int n) = .integer n := by
  simp [bind, bind?, Json.int, ofNumber?, Number.integer?, h]

theorem Stored.bind_int_of_gt (h : Number.integerLimit < n) :
    bind (.int n) = .real n.toNat.toUInt64.toFloat := by
  have hpos : 0 < n := lt_trans (by decide) h
  have hsize : n.natAbs = n.toNat := by omega
  simp [bind, bind?, Json.int, ofNumber?, Number.integer?, Number.double?, not_le.mpr h,
    not_lt.mpr hpos.le, hsize]

/-- Above the limit stand the integers of 64 binary digits, eleven more than a mantissa has. -/
theorem log2_of_gt (h : Number.integerLimit < n) (hr : (Number.int n).InRange) :
    n.toNat.toUInt64.toNat = n.toNat ∧ n.toNat.log2 = 52 + 11 := by
  have hmost : n ≤ 2 ^ 64 - 1 := hr.2
  have hleast : 2 ^ 63 - 1 < n := h
  refine ⟨UInt64.toNat_ofNat_of_lt' (show n.toNat < 2 ^ 64 by omega), ?_⟩
  exact (Nat.log2_eq_iff (by omega)).mpr ⟨by omega, by omega⟩

/-- The doubles of great integers are finite. -/
theorem Stored.toJson_bind_of_gt (h : Number.integerLimit < n) (hr : (Number.int n).InRange) :
    (bind (.int n)).toJson = .number (.float n.toNat.toUInt64.toFloat) := by
  obtain ⟨hsize, hlog⟩ := log2_of_gt h hr
  rw [bind_int_of_gt h, toJson, if_pos (Decimal.isFinite_toFloat (hsize ▸ hlog))]

/-- What may be read where an integer was stored. -/
def ComesBack (n : Int) : Json → Prop
  | .number (.int m) => n ≤ Number.integerLimit ∧ m = n
  | .number (.float x) => Number.integerLimit < n ∧ (Double.ofFloat x).IsNearest n.toNat
  | _ => False

theorem ComesBack.eq_int {value : Json} (h : ComesBack n value) (hn : n ≤ Number.integerLimit) :
    value = .int n := by
  unfold ComesBack at h
  split at h
  · rw [h.2]
    rfl
  · exact absurd h.1 (not_lt.mpr hn)
  · exact h.elim

theorem ComesBack.exists_nearest {value : Json} (h : ComesBack n value)
    (hn : Number.integerLimit < n) :
    ∃ x, value = .number (.float x) ∧ (Double.ofFloat x).IsNearest n.toNat := by
  unfold ComesBack at h
  split at h
  · exact absurd hn (not_lt.mpr h.1)
  · exact ⟨_, rfl, h.2⟩
  · exact h.elim

theorem comesBack_bind (hr : (Number.int n).InRange) :
    ComesBack n (Stored.bind (.int n)).toJson := by
  rcases le_or_gt n Number.integerLimit with hle | hgt
  · rw [Stored.bind_int_of_le hle]
    exact ⟨hle, rfl⟩
  · obtain ⟨hsize, hlog⟩ := log2_of_gt hgt hr
    rw [Stored.toJson_bind_of_gt hgt hr]
    refine ⟨hgt, ?_⟩
    have hnearest := Double.isNearest_toFloat (hsize ▸ hlog)
    rwa [hsize] at hnearest

/-- Great integers become one double when they are nearest to one multiple of 2048. -/
theorem toFloat_eq_iff (hm : Number.integerLimit < m) (hmr : (Number.int m).InRange)
    (hn : Number.integerLimit < n) (hnr : (Number.int n).InRange) :
    m.toNat.toUInt64.toFloat = n.toNat.toUInt64.toFloat ↔
      nearest m.toNat (2 ^ 11) = nearest n.toNat (2 ^ 11) := by
  obtain ⟨hmsize, hmlog⟩ := log2_of_gt hm hmr
  obtain ⟨hnsize, hnlog⟩ := log2_of_gt hn hnr
  have hmbits := Decimal.toNat_toBits_toFloat (hmsize ▸ hmlog)
  have hnbits := Decimal.toNat_toBits_toFloat (hnsize ▸ hnlog)
  rw [hmsize] at hmbits
  rw [hnsize] at hnbits
  constructor
  · intro heq
    rw [heq, hnbits] at hmbits
    omega
  · intro heq
    refine Number.eq_of_toBits_eq (UInt64.toNat_inj.mp ?_)
    rw [hmbits, hnbits, heq]

theorem Stored.bind_int_eq_iff (hmr : (Number.int m).InRange) (hnr : (Number.int n).InRange) :
    bind (.int m) = bind (.int n) ↔
      m = n ∨ Number.integerLimit < m ∧ Number.integerLimit < n ∧
        nearest m.toNat (2 ^ 11) = nearest n.toNat (2 ^ 11) := by
  rcases le_or_gt m Number.integerLimit with hm | hm <;>
    rcases le_or_gt n Number.integerLimit with hn | hn
  · simp [bind_int_of_le hm, bind_int_of_le hn, not_lt.mpr hm]
  · have hne : m ≠ n := by omega
    simp [bind_int_of_le hm, bind_int_of_gt hn, not_lt.mpr hm, hne]
  · have hne : m ≠ n := by omega
    simp [bind_int_of_gt hm, bind_int_of_le hn, not_lt.mpr hn, hne]
  · rw [bind_int_of_gt hm, bind_int_of_gt hn, Stored.real.injEq, toFloat_eq_iff hm hmr hn hnr]
    refine ⟨fun heq => .inr ⟨hm, hn, heq⟩, ?_⟩
    rintro (rfl | ⟨-, -, heq⟩)
    · rfl
    · exact heq

end

-- ---------------------------------------------------------------------------
-- Rows of parameters
-- ---------------------------------------------------------------------------

/-- The columns of a statement that selects its parameters, each under a name. -/
def selected (parameters : List (String × Json)) : List (String × Stored) :=
  (parameters.map Prod.fst).zip (bindings (parameters.map Prod.snd))

theorem selected_eq (parameters : List (String × Json)) :
    selected parameters = parameters.map fun p => (p.1, Stored.bind p.2) := by
  rw [selected, bindings_eq_map, List.map_map, List.zip_map']
  rfl

/-- What a row shows of its parameters. -/
theorem rowObject_selected (parameters : List (String × Json)) :
    rowObject (selected parameters) =
      .object (Members.ofList (parameters.map fun p => (p.1, (Stored.bind p.2).toJson))) := by
  rw [rowObject, selected_eq, List.map_map]
  rfl

theorem rowOf_eq {columns : List (String × Stored)} (hne : columns ≠ [])
    (hmost : columns.length ≤ mostColumns) : rowOf columns = .ok (rowObject columns) := by
  rw [rowOf, if_neg (by simpa using hne), if_neg (by omega)]

/-- A row of integers shows each one under the name of its column: the integer itself up to the
limit, above it the nearest double. Up to the limit no two integers are stored alike, and above
it only those that are nearest to one multiple of 2048. -/
theorem selected_integers_come_back {columns : List (String × Int)}
    (hr : ∀ c ∈ columns, (Number.int c.2).InRange) :
    let row := selected (columns.map fun c => (c.1, .int c.2))
    (columns ≠ [] → columns.length ≤ mostColumns → rowOf row = .ok (rowObject row)) ∧
      (∃ members : Members, rowObject row = .object members ∧
        (∀ front name n back, columns = front ++ (name, n) :: back →
          name ∉ back.map Prod.fst → ∃ value, members.get? name = some value ∧
            ComesBack n value) ∧
        ∀ key, key ∉ columns.map Prod.fst → members.get? key = none) ∧
      ∀ m n, (Number.int m).InRange → (Number.int n).InRange →
        (Stored.bind (.int m) = Stored.bind (.int n) ↔
          m = n ∨ Number.integerLimit < m ∧ Number.integerLimit < n ∧
            nearest m.toNat (2 ^ 11) = nearest n.toNat (2 ^ 11)) := by
  intro row
  refine ⟨fun hne hmost => rowOf_eq ?_ ?_, ⟨_, rowObject_selected _, ?_, ?_⟩,
    fun m n => Stored.bind_int_eq_iff⟩
  · simpa [row, selected_eq] using hne
  · simpa [row, selected_eq] using hmost
  · rintro front name n back rfl hlast
    have hn : (Number.int n).InRange := hr (name, n) (by simp)
    refine ⟨_, ?_, comesBack_bind hn⟩
    rw [List.map_map, List.map_append, List.map_cons]
    refine Members.get?_ofList_last _ ?_
    simpa [Function.comp_def] using hlast
  · intro key hkey
    refine Members.get?_ofList_of_notMem ?_
    simpa [Function.comp_def] using hkey

/-- The least integer, the limit, and one just above the middle between two doubles. -/
theorem limits_come_back :
    let columns : List (String × Int) :=
      [("least", -9223372036854775808), ("most", 9223372036854775807),
        ("above", 9223372036854776833)]
    let row := selected (columns.map fun c => (c.1, .int c.2))
    (∀ c ∈ columns, (Number.int c.2).InRange) ∧ rowOf row = .ok (rowObject row) ∧
      ∃ members : Members, rowObject row = .object members ∧
        members.get? "least" = some (.int (-9223372036854775808)) ∧
        members.get? "most" = some (.int 9223372036854775807) ∧
        ∃ x, members.get? "above" = some (.number (.float x)) ∧
          (Double.ofFloat x).IsNearest 9223372036854776833 := by
  intro columns row
  have hr : ∀ c ∈ columns, (Number.int c.2).InRange := by decide
  obtain ⟨hrow, ⟨members, hobject, hlast, -⟩, -⟩ := selected_integers_come_back hr
  obtain ⟨least, hleast, hl⟩ := hlast [] "least" _ _ rfl (by decide)
  obtain ⟨most, hmost, hm⟩ := hlast [_] "most" _ _ rfl (by decide)
  obtain ⟨above, habove, ha⟩ := hlast [_, _] "above" _ _ rfl (by decide)
  rw [hl.eq_int (by decide)] at hleast
  rw [hm.eq_int (by decide)] at hmost
  obtain ⟨x, rfl, hx⟩ := ha.exists_nearest (by decide)
  exact ⟨hr, hrow (by simp [columns]) (by decide), members, hobject, hleast, hmost, x, habove, hx⟩

/-- The two greatest integers are stored as one double, so neither comes back. -/
theorem greatest_integers_stored_alike :
    let columns : List (String × Int) :=
      [("a", 18446744073709551615), ("b", 18446744073709551614)]
    (∀ c ∈ columns, (Number.int c.2).InRange) ∧
      Stored.bind (.int 18446744073709551615) = Stored.bind (.int 18446744073709551614) ∧
      rowObject (selected (columns.map fun c => (c.1, .int c.2))) ≠
        .object (columns.map fun c => (c.1, .int c.2)) := by
  intro columns
  refine ⟨by decide, ?_, ?_⟩
  · rw [Stored.bind_int_of_gt (by decide), Stored.bind_int_of_gt (by decide)]
    exact congrArg Stored.real (Number.eq_of_toBits_eq (by decide))
  · intro heq
    rw [rowObject_selected, Json.object.injEq] at heq
    have hfound : (Members.ofList [("a", (Stored.bind (.int 18446744073709551615)).toJson),
        ("b", (Stored.bind (.int 18446744073709551614)).toJson)]).get? "b" =
        some (Stored.bind (.int 18446744073709551614)).toJson :=
      Members.get?_ofList_last [_] (by simp)
    have hb : Members.get? (columns.map fun c => (c.1, .int c.2)) "b" =
        some (Stored.bind (.int 18446744073709551614)).toJson := heq ▸ hfound
    rw [Stored.toJson_bind_of_gt (by decide) (by decide)] at hb
    simp [columns, Members.get?_cons, Json.int] at hb

end Folio.Database
