import Folio.Config
import Folio.Proofs.Attempt
import Folio.Proofs.Text.Bounded
import Mathlib.Algebra.Group.Nat.Defs

/-!
# Which configurations are accepted

Three variables hold numbers, each with a range and a default. A configuration is accepted just
when all three are not set or are integers of their range. Otherwise the first of them that is
not is reported.
-/

namespace Folio.Config

open Attempt (bind_error bind_ok mapM_error pure_ok)
open Numeral (Whole)

/-- A number among the variables. Its default passes its own check. -/
structure Variable where
  name : String
  wanted : String
  range : Numeral.Range
  unset : Int
  contains_unset : range.Contains unset

def connections : Variable :=
  ⟨"DATABASE_MAX_CONNECTIONS", "u32", ⟨0, 2 ^ 32 - 1⟩, 5, by decide, by decide⟩

def limit : Variable :=
  ⟨"QUERY_MAX_LIMIT", "integer", ⟨2 ^ 63, 2 ^ 63 - 1⟩, 1000, by decide, by decide⟩

def seconds : Variable :=
  ⟨"CACHE_TTL_SECS", "u64", ⟨0, 2 ^ 64 - 1⟩, 300, by decide, by decide⟩

/-- In the order in which they are read. -/
def numbers : List Variable :=
  [connections, limit, seconds]

namespace Variable

variable {v : Variable} {lookup : String → Option String} {n : Int}

/-- The variable stands for `n`: it is not set and this is its default, or its text is this
integer from end to end, and the integer is in its range. -/
def Holds (v : Variable) (lookup : String → Option String) (n : Int) : Prop :=
  match lookup v.name with
  | none => n = v.unset
  | some text =>
    ∃ whole : Whole text.toList,
      whole.Within (-v.range.below) v.range.above ∧ whole.value = n

def IsValid (v : Variable) (lookup : String → Option String) : Prop :=
  ∃ n, v.Holds lookup n

theorem Holds.contains (h : v.Holds lookup n) : v.range.Contains n := by
  unfold Holds at h
  split at h
  · exact h ▸ v.contains_unset
  · obtain ⟨whole, hw, rfl⟩ := h
    exact ⟨hw.low_le, hw.le_high⟩

def read (v : Variable) (lookup : String → Option String) : Except Invalid Int :=
  number lookup v.name v.wanted v.range v.unset

theorem read_eq_ok_iff : v.read lookup = .ok n ↔ v.Holds lookup n := by
  unfold read number Holds
  cases lookup v.name with
  | none => simp [eq_comm]
  | some text =>
    simp only [← Numeral.Range.read_eq_ok_iff]
    cases v.range.read text.toList <;> simp [Except.mapError]

theorem isValid_iff : v.IsValid lookup ↔ ∃ n, v.read lookup = .ok n := by
  simp only [IsValid, read_eq_ok_iff]

/-- An error is about the variable that was read. -/
theorem named_of_read {invalid : Invalid} (h : v.read lookup = .error invalid) :
    invalid.name = v.name ∧ invalid.wanted = v.wanted := by
  unfold read number at h
  split at h
  · cases h
  · rename_i text _
    cases hr : v.range.read text.toList with
    | error fault =>
      rw [hr] at h
      cases h
      exact ⟨rfl, rfl⟩
    | ok n =>
      rw [hr] at h
      cases h

/-- Only the text of the variable counts. -/
theorem read_congr {other : String → Option String} (h : other v.name = lookup v.name) :
    v.read other = v.read lookup := by
  unfold read number
  rw [h]

end Variable

section
variable {lookup : String → Option String}

theorem ofLookup_eq (lookup : String → Option String) :
    ofLookup lookup = (do
      let maxConnections ← connections.read lookup
      let maxLimit ← limit.read lookup
      let cacheSeconds ← seconds.read lookup
      return {
        databaseUrl := (lookup "DATABASE_URL").getD "sqlite::memory:"
        maxConnections := maxConnections.toNat
        maxLimit
        cacheSeconds := cacheSeconds.toNat
        cachePrefix := (lookup "CACHE_KEY_PREFIX").getD "api" }) := rfl

/-- Everything in a configuration is what a variable stands for. -/
theorem holds_of_ofLookup {config : Config} (h : ofLookup lookup = .ok config) :
    connections.Holds lookup config.maxConnections ∧ limit.Holds lookup config.maxLimit ∧
      seconds.Holds lookup config.cacheSeconds ∧
      config.databaseUrl = (lookup "DATABASE_URL").getD "sqlite::memory:" ∧
      config.cachePrefix = (lookup "CACHE_KEY_PREFIX").getD "api" := by
  simp only [ofLookup_eq, bind_ok, pure_ok, Variable.read_eq_ok_iff] at h
  obtain ⟨maxConnections, hc, maxLimit, hl, cacheSeconds, hs, rfl⟩ := h
  have hconnections : 0 ≤ maxConnections := hc.contains.1
  have hseconds : 0 ≤ cacheSeconds := hs.contains.1
  simp only [Int.toNat_of_nonneg hconnections, Int.toNat_of_nonneg hseconds]
  exact ⟨hc, hl, hs, trivial, trivial⟩

theorem exists_ofLookup_iff :
    (∃ config, ofLookup lookup = .ok config) ↔ ∀ v ∈ numbers, v.IsValid lookup := by
  simp only [ofLookup_eq, bind_ok, pure_ok, numbers, List.forall_mem_cons,
    Variable.isValid_iff]
  constructor
  · rintro ⟨config, m, hm, n, hn, k, hk, -⟩
    exact ⟨⟨m, hm⟩, ⟨n, hn⟩, ⟨k, hk⟩, List.forall_mem_nil _⟩
  · rintro ⟨⟨m, hm⟩, ⟨n, hn⟩, ⟨k, hk⟩, -⟩
    exact ⟨_, m, hm, n, hn, k, hk, rfl⟩

/-- The error is that of the first variable that is not valid. -/
theorem ofLookup_eq_error_iff {invalid : Invalid} :
    ofLookup lookup = .error invalid ↔
      ∃ before v after, numbers = before ++ v :: after ∧
        (∀ w ∈ before, w.IsValid lookup) ∧ v.read lookup = .error invalid := by
  simp only [Variable.isValid_iff, ← mapM_error (f := (Variable.read · lookup)), ofLookup_eq,
    numbers, List.mapM_cons, List.mapM_nil, bind_error]
  simp [pure, Except.pure]

end

/-- A configuration is accepted just when each of the three numbers is not set or in its range.
It holds the numbers and the texts of the variables. Otherwise the error names the first
variable that is not valid, whatever the variables behind it hold. -/
theorem ofLookup_accepts_just_numbers (lookup : String → Option String) :
    ((∃ config, ofLookup lookup = .ok config) ↔ ∀ v ∈ numbers, v.IsValid lookup) ∧
      (∀ config, ofLookup lookup = .ok config →
        connections.Holds lookup config.maxConnections ∧ limit.Holds lookup config.maxLimit ∧
          seconds.Holds lookup config.cacheSeconds ∧
          config.databaseUrl = (lookup "DATABASE_URL").getD "sqlite::memory:" ∧
          config.cachePrefix = (lookup "CACHE_KEY_PREFIX").getD "api") ∧
      ∀ invalid, ofLookup lookup = .error invalid →
        ∃ before v after, numbers = before ++ v :: after ∧
          (∀ w ∈ before, w.IsValid lookup) ∧ ¬ v.IsValid lookup ∧
          invalid.name = v.name ∧ invalid.context = v.name ++ " must be a valid " ++ v.wanted ∧
          ∀ other, (∀ w ∈ before ++ [v], other w.name = lookup w.name) →
            ofLookup other = .error invalid := by
  refine ⟨exists_ofLookup_iff, fun config h => holds_of_ofLookup h, fun invalid h => ?_⟩
  obtain ⟨before, v, after, hv, hb, he⟩ := ofLookup_eq_error_iff.mp h
  obtain ⟨hname, hwanted⟩ := Variable.named_of_read he
  have hinvalid : ¬ v.IsValid lookup := by
    rw [Variable.isValid_iff, he]
    nofun
  have hcontext : invalid.context = v.name ++ " must be a valid " ++ v.wanted := by
    rw [Invalid.context, hname, hwanted]
  refine ⟨before, v, after, hv, hb, hinvalid, hname, hcontext, fun other ho => ?_⟩
  obtain ⟨hother, hlast⟩ := List.forall_mem_append.mp ho
  refine ofLookup_eq_error_iff.mpr ⟨before, v, after, hv, fun w hw => ?_, ?_⟩
  · rw [Variable.isValid_iff, Variable.read_congr (hother w hw), ← Variable.isValid_iff]
    exact hb w hw
  · rw [Variable.read_congr (hlast v (List.mem_singleton_self v)), he]

/-- Of two variables that are not valid the first one is reported. -/
theorem oversized_limit_is_reported :
    let lookup : String → Option String := fun
      | "QUERY_MAX_LIMIT" => some "9223372036854775808"
      | "CACHE_TTL_SECS" => some "-1"
      | _ => none
    ofLookup lookup = .error ⟨"QUERY_MAX_LIMIT", "integer", .tooLarge⟩ ∧
      ¬ ∀ v ∈ numbers, v.IsValid lookup := by
  refine ⟨rfl, fun h => ?_⟩
  obtain ⟨config, hc⟩ := (ofLookup_accepts_just_numbers _).1.mpr h
  cases hc

end Folio.Config
