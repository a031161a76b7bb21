import Folio.Json.Cursor
import Folio.Proofs.Json.Shape

/-!
# Steps of a reader

Two things can be said of a reader without a word about places in the text: that it takes a
certain part of a text and gives a certain value, and that whatever it gives has a property.
Both are passed on from the parts of a reader to the whole.
-/

namespace Folio.Json

open Attempt (bind_ok)
open Reading

variable {α β σ : Type}

/-- Of the text the reader leaves the rest, and it gives the value, wherever the text stands. -/
def Gives (reading : Reading α) (text : List Char) (value : α) (rest : List Char) : Prop :=
  ∀ position : Position, ∃ after : Position,
    StateT.run reading ⟨position, text⟩ = .ok (value, ⟨after, rest⟩)

/-- All that the reader can give has the property. -/
def Yields (reading : Reading α) (p : α → Prop) : Prop :=
  ∀ cursor value after, StateT.run reading cursor = .ok (value, after) → p value

/-- The reader, with nothing but blanks behind what it takes. -/
def whole (reading : Reading α) : Reading α := do
  let value ← reading
  match ← peekToken with
  | none => pure value
  | some _ => refuse .trailingCharacters

theorem run_ok {reading : Reading α} {text : String} {value : α} :
    run reading text = .ok value ↔
      ∃ after, StateT.run (whole reading) (Cursor.start text.toList) = .ok (value, after) := by
  refine bind_ok.trans ⟨?_, ?_⟩
  · rintro ⟨⟨given, after⟩, hg, ⟨⟩⟩
    exact ⟨after, hg⟩
  · rintro ⟨after, ha⟩
    exact ⟨_, ha, rfl⟩

-- ---------------------------------------------------------------------------
-- What is given
-- ---------------------------------------------------------------------------

section
variable {reading : Reading α} {text mid rest : List Char} {value : α}

theorem gives_pure (value : α) (text : List Char) : Gives (pure value) text value text :=
  fun position => ⟨position, rfl⟩

theorem Gives.bind {next : α → Reading β} {last : β} (h : Gives reading text value mid)
    (hn : Gives (next value) mid last rest) : Gives (reading >>= next) text last rest := by
  intro position
  obtain ⟨between, hb⟩ := h position
  obtain ⟨after, ha⟩ := hn between
  refine ⟨after, ?_⟩
  rw [StateT.run_bind, hb]
  exact ha

/-- A text is read in one way. -/
theorem Gives.unique {other : α} {left : List Char} (h : Gives reading text value rest)
    (ho : Gives reading text other left) : value = other ∧ rest = left := by
  obtain ⟨after, ha⟩ := h ⟨1, 0⟩
  obtain ⟨after', ha'⟩ := ho ⟨1, 0⟩
  cases ha.symm.trans ha'
  exact ⟨rfl, rfl⟩

theorem gives_peek (text : List Char) : Gives peek text text.head? text :=
  fun position => ⟨position, rfl⟩

theorem gives_advance (c : Char) (text : List Char) : Gives advance (c :: text) () text :=
  fun position => ⟨position.after c, rfl⟩

theorem gives_takeWhile (p : Char → Bool) (text : List Char) :
    Gives (takeWhile p) text (text.takeWhile p) (text.dropWhile p) :=
  fun _ => ⟨_, rfl⟩

/-- No blank stands at the front. -/
def Unblanked (text : List Char) : Prop :=
  ∀ c ∈ text.head?, isBlank c = false

theorem gives_peekToken (h : Unblanked text) : Gives peekToken text text.head? text := by
  have hskip : Gives skipBlanks text () text := by
    refine (gives_takeWhile isBlank text).bind ?_
    cases text with
    | nil => exact gives_pure () _
    | cons c text =>
      rw [List.dropWhile_cons_of_neg (by simp [h c rfl])]
      exact gives_pure () _
  exact hskip.bind (gives_peek text)

/-- The states that a repeated step goes through until it gives nothing, and the text that
it leaves then. -/
inductive Walk (step : σ → Reading (Option σ)) : σ → List Char → σ → List Char → Prop
  | stop {state : σ} {text rest : List Char} (h : Gives (step state) text none rest) :
    Walk step state text state rest
  | go {state next last : σ} {text mid rest : List Char}
    (h : Gives (step state) text (some next) mid) (hl : mid.length < text.length)
    (hw : Walk step next mid last rest) : Walk step state text last rest

theorem Walk.loop {step : σ → Reading (Option σ)} {state last : σ}
    (h : Walk step state text last rest) {ahead : List Char} (ha : text.length < ahead.length) :
    Gives (loop step ahead state) text last rest := by
  induction h generalizing ahead with
  | stop h =>
    cases ahead with
    | nil => cases ha
    | cons c ahead => exact h.bind (gives_pure _ _)
  | go h hl _ ih =>
    cases ahead with
    | nil => cases ha
    | cons c ahead =>
      refine h.bind (ih ?_)
      rw [List.length_cons] at ha
      omega

theorem Walk.iterate {step : σ → Reading (Option σ)} {state last : σ}
    (h : Walk step state text last rest) : Gives (iterate step state) text last rest := by
  intro position
  have hlength : text.length < (' ' :: text).length := Nat.lt_succ_self _
  obtain ⟨after, ha⟩ := h.loop hlength position
  exact ⟨after, ha⟩

theorem Gives.run {text : String} (h : Gives reading text.toList value []) :
    run reading text = .ok value := by
  have hend : Gives peekToken [] none [] := gives_peekToken (by simp [Unblanked])
  have hwhole : Gives (whole reading) text.toList value [] := h.bind (hend.bind (gives_pure _ _))
  obtain ⟨after, ha⟩ := hwhole ⟨1, 0⟩
  exact run_ok.mpr ⟨_, ha⟩

end

-- ---------------------------------------------------------------------------
-- What can be given
-- ---------------------------------------------------------------------------

section
variable {reading : Reading α} {p : α → Prop}

theorem yields_trivial (reading : Reading α) : Yields reading fun _ => True :=
  fun _ _ _ _ => trivial

theorem yields_pure {value : α} (h : p value) : Yields (pure value) p := by
  rintro cursor value after ⟨⟩
  exact h

theorem yields_fail (fault : Fault) (bytes : Nat) : Yields (fail fault bytes) p := by
  rintro cursor value after ⟨⟩

theorem yields_failBack (fault : Fault) (bytes : Nat) : Yields (failBack fault bytes) p := by
  rintro cursor value after ⟨⟩

theorem yields_refuse (malformed : Malformed) : Yields (refuse malformed) p :=
  yields_fail _ _

theorem yields_ended (part : Part) : Yields (ended part) p :=
  yields_fail _ _

theorem yields_mismatch (m : Mismatch) : Yields (mismatch m) p :=
  yields_fail _ _

theorem Yields.bind {next : α → Reading β} {q : β → Prop} (h : Yields reading p)
    (hn : ∀ value, p value → Yields (next value) q) : Yields (reading >>= next) q := by
  intro cursor last after hl
  rw [StateT.run_bind] at hl
  cases hr : StateT.run reading cursor with
  | error failure =>
    rw [hr] at hl
    cases hl
  | ok given =>
    obtain ⟨value, between⟩ := given
    rw [hr] at hl
    exact hn value (h cursor value between hr) between last after hl

/-- Nothing needs to be known of what the first reader gives. -/
theorem yields_bind {next : α → Reading β} {q : β → Prop}
    (h : ∀ value, Yields (next value) q) : Yields (reading >>= next) q :=
  (yields_trivial reading).bind fun value _ => h value

theorem yields_loop {step : σ → Reading (Option σ)} {q : σ → Prop}
    (h : ∀ state, q state → Yields (step state) fun next => ∀ s ∈ next, q s) {ahead : List Char}
    {state : σ} (hs : q state) : Yields (loop step ahead state) q := by
  induction ahead generalizing state with
  | nil => exact yields_pure hs
  | cons c ahead ih =>
    refine (h state hs).bind ?_
    rintro (_ | next) hn
    · exact yields_pure hs
    · exact ih (hn next rfl)

theorem yields_iterate {step : σ → Reading (Option σ)} {q : σ → Prop}
    (h : ∀ state, q state → Yields (step state) fun next => ∀ s ∈ next, q s) {state : σ}
    (hs : q state) : Yields (iterate step state) q :=
  yields_bind fun _ => yields_loop h hs

theorem Yields.of_run {text : String} {value : α} (h : Yields reading p)
    (hr : run reading text = .ok value) : p value := by
  have hwhole : Yields (whole reading) p := by
    refine h.bind fun value hv => yields_bind fun next => ?_
    cases next with
    | none => exact yields_pure hv
    | some c => exact yields_refuse _
  obtain ⟨after, ha⟩ := run_ok.mp hr
  exact hwhole _ _ _ ha

end

end Folio.Json
