import Folio.Proofs.Template.Meaning

/-!
# What becomes of helper calls

A call that can be made where it stands is replaced by its title-cased value. Another one should
stay as it is written, but it is read again: by the pass over plain tags, which leaves it only if
it has a space, and by every level around, which makes the call if the data there allow it. So
calls come out as promised just where neither happens.
-/

namespace Folio.Template

-- ---------------------------------------------------------------------------
-- One call
-- ---------------------------------------------------------------------------

/-- The scopes around a place, from the inside. -/
def Scope.levels : Scope → List Scope
  | .root data => [.root data]
  | .item element index size outer => .item element index size outer :: outer.levels

namespace Scope

theorem exists_levels_eq_cons (scope : Scope) : ∃ outers, scope.levels = scope :: outers := by
  cases scope with
  | root => exact ⟨_, rfl⟩
  | item => exact ⟨_, rfl⟩

theorem self_mem_levels (scope : Scope) : scope ∈ scope.levels := by
  obtain ⟨outers, hl⟩ := scope.exists_levels_eq_cons
  exact hl ▸ List.mem_cons_self

theorem BraceFree.of_mem_levels {scope level : Scope} (hs : scope.BraceFree)
    (h : level ∈ scope.levels) : level.BraceFree := by
  induction scope with
  | root => rwa [List.mem_singleton.mp h]
  | item element index size outer ih =>
    rcases List.mem_cons.mp h with rfl | h
    · exact hs
    · exact ih hs.2 h

end Scope

namespace Call

/-- The value that a call is made with. Another helper than `titleCase` has none, and neither has
an argument that is missing or null. -/
def value? (scope : Scope) (call : Call) : Option Json :=
  if call.helper = "titleCase".toList then
    match scope.resolve call.argument with
    | some .null => none
    | value => value
  else none

/-- What is to stand in the place of a call that is reached in a scope. -/
def promised (scope : Scope) (call : Call) : List Char :=
  ((call.value? scope).map fun value => titleCase false value.looseText).getD call.source

/-- What does stand there: the innermost level at which something becomes of the call decides. -/
def shown (scope : Scope) (call : Call) : List Char :=
  (scope.levels.findSome? fun level => call.outcome? level).getD call.source

/-- The call is made where it stands, or it has a space and no level around can make it. -/
def IsSettled (scope : Scope) (call : Call) : Prop :=
  (call.value? scope).isSome ∨
    ' ' ∈ call.blanks ∧ ∀ level ∈ scope.levels, call.value? level = none

instance (scope : Scope) (call : Call) : Decidable (call.IsSettled scope) :=
  inferInstanceAs (Decidable (_ ∨ _))

variable {scope : Scope} {call : Call}

theorem applyHelper_eq (scope : Scope) (call : Call) :
    applyHelper scope call.helper call.argument =
      (call.value? scope).map fun value => titleCase false value.looseText := by
  unfold applyHelper value?
  split
  · cases scope.resolve call.argument with
    | none => rfl
    | some value => cases value <;> rfl
  · rfl

theorem outcome?_of_value? {value : Json} (h : call.value? scope = some value) :
    call.outcome? scope = some (titleCase false value.looseText) := by
  rw [outcome?, applyHelper_eq, h]
  rfl

theorem outcome?_eq_none :
    call.outcome? scope = none ↔ call.value? scope = none ∧ ' ' ∈ call.blanks := by
  rw [outcome?, applyHelper_eq]
  cases call.value? scope <;> simp

theorem promised_of_value?_eq_none (h : call.value? scope = none) :
    call.promised scope = call.source := by
  rw [promised, h]
  rfl

theorem IsSettled.shown_eq (h : call.IsSettled scope) : call.shown scope = call.promised scope := by
  rcases h with h | ⟨hspace, h⟩
  · obtain ⟨value, hv⟩ := Option.isSome_iff_exists.mp h
    obtain ⟨outers, hl⟩ := scope.exists_levels_eq_cons
    rw [shown, promised, hl, List.findSome?_cons, outcome?_of_value? hv, hv]
    rfl
  · have hnone : (scope.levels.findSome? fun level => call.outcome? level) = none :=
      List.findSome?_eq_none_iff.mpr fun level hl => outcome?_eq_none.mpr ⟨h level hl, hspace⟩
    rw [shown, hnone, promised_of_value?_eq_none (h scope scope.self_mem_levels)]
    rfl

/-- A call that is not settled is lost, though it should stay. -/
theorem brace_notMem_shown (hs : scope.BraceFree) (h : ¬ call.IsSettled scope) :
    '{' ∉ call.shown scope ∧ call.promised scope = call.source := by
  rw [IsSettled, not_or, Option.not_isSome_iff_eq_none] at h
  obtain ⟨hself, h⟩ := h
  have hsome : ∃ level ∈ scope.levels, call.outcome? level ≠ none := by
    by_contra hnone
    push Not at hnone
    exact h ⟨(outcome?_eq_none.mp (hnone scope scope.self_mem_levels)).2,
      fun level hl => (outcome?_eq_none.mp (hnone level hl)).1⟩
  refine ⟨?_, promised_of_value?_eq_none hself⟩
  rw [shown]
  cases hf : scope.levels.findSome? fun level => call.outcome? level with
  | none =>
    obtain ⟨level, hl, hne⟩ := hsome
    exact absurd (List.findSome?_eq_none_iff.mp hf level hl) hne
  | some text =>
    obtain ⟨level, hl, ho⟩ := List.exists_of_findSome?_eq_some hf
    exact brace_notMem_outcome? (hs.of_mem_levels hl) ho

end Call

-- ---------------------------------------------------------------------------
-- Templates
-- ---------------------------------------------------------------------------

/-- What a leaf means in its scope, if calls become what `becomes` gives. -/
def Leaf.meaning (becomes : Scope → Call → List Char) (scope : Scope) : Leaf → List Char
  | .text chars => chars
  | .plain path => display (scope.resolve path)
  | .raw path => display (scope.resolve path)
  | .invoke call => becomes scope call

def Leaf.reached (scope : Scope) : Leaf → List (Scope × Call)
  | .invoke call => [(scope, call)]
  | _ => []

namespace Script

def meaning (becomes : Scope → Call → List Char) : Script → Scope → List Char
  | .flat leaves, scope => leaves.flatMap (Leaf.meaning becomes scope)
  | .block b path body, scope => (b.turns scope path).flatMap (body.meaning becomes)
  | .append first second, scope => first.meaning becomes scope ++ second.meaning becomes scope

/-- The calls in the turns that are made, each with the scope where it stands. -/
def reached : Script → Scope → List (Scope × Call)
  | .flat leaves, scope => leaves.flatMap (Leaf.reached scope)
  | .block b path body, scope => (b.turns scope path).flatMap body.reached
  | .append first second, scope => first.reached scope ++ second.reached scope

end Script

-- ---------------------------------------------------------------------------
-- Through the levels
-- ---------------------------------------------------------------------------

namespace Leaf

variable {scope inner : Scope} {leaf : Leaf}

/-- What is left of a leaf when all levels have gone over it. -/
def finish (scope : Scope) (leaf : Leaf) : Leaf :=
  scope.levels.foldl (fun leaf level => leaf.fill level) leaf

theorem foldl_fill_text (levels : List Scope) (chars : List Char) :
    levels.foldl (fun leaf level => leaf.fill level) (text chars) = text chars := by
  induction levels with
  | nil => rfl
  | cons level levels ih => rw [List.foldl_cons, fill_text, ih]

theorem foldl_fill_invoke (levels : List Scope) (call : Call) :
    levels.foldl (fun leaf level => leaf.fill level) (invoke call) =
      ((levels.findSome? fun level => call.outcome? level).map text).getD (.invoke call) := by
  induction levels with
  | nil => rfl
  | cons level levels ih =>
    rw [List.foldl_cons, fill_invoke, List.findSome?_cons]
    cases call.outcome? level with
    | none => exact ih
    | some chars => exact foldl_fill_text levels chars

theorem source_finish (scope : Scope) (leaf : Leaf) :
    (leaf.finish scope).source = leaf.meaning Call.shown scope := by
  obtain ⟨outers, hl⟩ := scope.exists_levels_eq_cons
  cases leaf with
  | text chars => rw [finish, foldl_fill_text]; rfl
  | plain path => rw [finish, hl, List.foldl_cons, fill_plain, foldl_fill_text]; rfl
  | raw path => rw [finish, hl, List.foldl_cons, fill_raw, foldl_fill_text]; rfl
  | invoke call =>
    rw [finish, foldl_fill_invoke, meaning, Call.shown]
    cases scope.levels.findSome? fun level => call.outcome? level <;> rfl

theorem finish_fill (scope : Scope) (leaf : Leaf) :
    (leaf.fill scope).finish scope = leaf.finish scope := by
  obtain ⟨outers, hl⟩ := scope.exists_levels_eq_cons
  rw [finish, finish, hl, List.foldl_cons, List.foldl_cons, fill_fill]

theorem finish_of_mem_turns {b : Block} {path : List Char} (hi : inner ∈ b.turns scope path)
    (hl : leaf.fill inner = leaf) : leaf.finish scope = leaf.finish inner := by
  cases b with
  | each =>
    obtain ⟨items, -, element, -, index, rfl⟩ := Block.exists_of_mem_turns_each hi
    rw [finish, finish, Scope.levels, List.foldl_cons, hl]
  | cond => rw [Block.eq_of_mem_turns_cond hi]

end Leaf

-- ---------------------------------------------------------------------------
-- Whole templates
-- ---------------------------------------------------------------------------

section
variable {α : Type} {c : Char} {items : List α} {texts others : α → List Char}

theorem count_flatMap_le (h : ∀ item ∈ items, (texts item).count c ≤ (others item).count c) :
    (items.flatMap texts).count c ≤ (items.flatMap others).count c := by
  induction items with
  | nil => exact Nat.le_refl _
  | cons item items ih =>
    obtain ⟨hi, hr⟩ := List.forall_mem_cons.mp h
    rw [List.flatMap_cons, List.flatMap_cons, List.count_append, List.count_append]
    exact Nat.add_le_add hi (ih hr)

theorem count_flatMap_congr (h : ∀ item ∈ items, (texts item).count c = (others item).count c) :
    (items.flatMap texts).count c = (items.flatMap others).count c :=
  Nat.le_antisymm (count_flatMap_le fun item hi => (h item hi).le)
    (count_flatMap_le fun item hi => (h item hi).ge)

theorem count_flatMap_lt (h : ∀ item ∈ items, (texts item).count c ≤ (others item).count c)
    {item : α} (hi : item ∈ items) (hlt : (texts item).count c < (others item).count c) :
    (items.flatMap texts).count c < (items.flatMap others).count c := by
  obtain ⟨before, after, rfl⟩ := List.append_of_mem hi
  obtain ⟨hb, ha⟩ := List.forall_mem_append.mp h
  have hbefore := count_flatMap_le hb
  have hafter := count_flatMap_le (List.forall_mem_cons.mp ha).2
  simp only [List.flatMap_append, List.flatMap_cons, List.count_append]
  omega

end

namespace Script

variable {script : Script} {scope : Scope}

/-- Each call of the template goes through all the levels around it. -/
theorem finish_rendered (script : Script) (scope : Scope) :
    ((script.rendered scope).flatMap fun leaf => (leaf.finish scope).source) =
      script.meaning Call.shown scope := by
  induction script generalizing scope with
  | flat leaves =>
    simp only [rendered, List.flatMap_map, Leaf.finish_fill]
    exact List.flatMap_congr fun leaf _ => Leaf.source_finish scope leaf
  | block b path body ih =>
    simp only [rendered, meaning, List.flatMap_map, Leaf.finish_fill, List.flatMap_assoc]
    -- What a turn leaves has gone through the turn's own scope, and then goes through ours.
    refine List.flatMap_congr fun inner hi => ?_
    rw [← ih inner]
    refine List.flatMap_congr fun leaf hl => ?_
    rw [Leaf.finish_of_mem_turns hi (fill_of_mem_rendered hl)]
  | append first second ih ih' =>
    rw [rendered, List.flatMap_append, ih, ih', meaning]

theorem sources_rendered_root (script : Script) (data : Json) :
    sources (script.rendered (.root data)) = script.meaning Call.shown (.root data) := by
  rw [← finish_rendered, sources]
  refine List.flatMap_congr fun leaf hl => ?_
  have hfinish : leaf.finish (.root data) = leaf.fill (.root data) := rfl
  rw [hfinish, fill_of_mem_rendered hl]

theorem meaning_congr {becomes others : Scope → Call → List Char}
    (h : ∀ place ∈ script.reached scope, becomes place.1 place.2 = others place.1 place.2) :
    script.meaning becomes scope = script.meaning others scope := by
  induction script generalizing scope with
  | flat leaves =>
    refine List.flatMap_congr fun leaf hl => ?_
    cases leaf with
    | text | plain | raw => rfl
    | invoke call => exact h (scope, call) (List.mem_flatMap.mpr ⟨_, hl, List.mem_singleton_self _⟩)
  | block b path body ih =>
    exact List.flatMap_congr fun inner hi =>
      ih fun place hp => h place (List.mem_flatMap.mpr ⟨inner, hi, hp⟩)
  | append first second ih ih' =>
    obtain ⟨hf, hs⟩ := List.forall_mem_append.mp h
    rw [meaning, meaning, ih hf, ih' hs]

theorem braceFree_of_mem_reached (hs : scope.BraceFree) {place : Scope × Call}
    (h : place ∈ script.reached scope) : place.1.BraceFree := by
  induction script generalizing scope with
  | flat leaves =>
    obtain ⟨leaf, -, hp⟩ := List.mem_flatMap.mp h
    cases leaf with
    | text | plain | raw => cases hp
    | invoke call => rwa [List.mem_singleton.mp hp]
  | block b path body ih =>
    obtain ⟨inner, hi, hp⟩ := List.mem_flatMap.mp h
    exact ih (Block.braceFree_of_mem_turns hs hi) hp
  | append first second ih ih' =>
    rcases List.mem_append.mp h with h | h
    · exact ih hs h
    · exact ih' hs h

/-- All braces of the output are those that calls leave. -/
theorem WellFormed.count_meaning (h : script.WellFormed) (hs : scope.BraceFree)
    (becomes : Scope → Call → List Char) :
    (script.meaning becomes scope).count '{' =
      ((script.reached scope).flatMap fun place => becomes place.1 place.2).count '{' := by
  induction script generalizing scope with
  | flat leaves =>
    rw [meaning, reached, List.flatMap_assoc]
    refine count_flatMap_congr fun leaf hl => ?_
    have hleaf := h leaf hl
    cases leaf with
    | text => exact List.count_eq_zero.mpr hleaf
    | plain path => exact List.count_eq_zero.mpr (brace_notMem_display hs path)
    | raw path => exact List.count_eq_zero.mpr (brace_notMem_display hs path)
    | invoke call => simp [Leaf.meaning, Leaf.reached]
  | block b path body ih =>
    rw [meaning, reached, List.flatMap_assoc]
    exact count_flatMap_congr fun inner hi => ih h.2 (Block.braceFree_of_mem_turns hs hi)
  | append first second ih ih' =>
    rw [meaning, reached, List.flatMap_append, List.count_append, List.count_append, ih h.1 hs,
      ih' h.2 hs]

/-- Calls that differ from what is promised do not make up for each other: each of them takes
braces out of the output. -/
theorem WellFormed.meaning_shown_eq_iff (h : script.WellFormed) (hs : scope.BraceFree) :
    script.meaning Call.shown scope = script.meaning Call.promised scope ↔
      ∀ place ∈ script.reached scope, place.2.IsSettled place.1 := by
  constructor
  · intro heq
    by_contra hplace
    push Not at hplace
    obtain ⟨place, hp, hunsettled⟩ := hplace
    have hle : ∀ place ∈ script.reached scope, (place.2.shown place.1).count '{' ≤
        (place.2.promised place.1).count '{' := by
      intro place hp
      by_cases hsettled : place.2.IsSettled place.1
      · rw [hsettled.shown_eq]
      · have hb := (Call.brace_notMem_shown (braceFree_of_mem_reached hs hp) hsettled).1
        rw [List.count_eq_zero.mpr hb]
        exact Nat.zero_le _
    have hlt : (place.2.shown place.1).count '{' < (place.2.promised place.1).count '{' := by
      obtain ⟨hb, hpromised⟩ := Call.brace_notMem_shown (braceFree_of_mem_reached hs hp) hunsettled
      rw [List.count_eq_zero.mpr hb, hpromised]
      exact List.count_pos_iff.mpr List.mem_cons_self
    have hfewer := count_flatMap_lt hle hp hlt
    rw [← h.count_meaning hs, ← h.count_meaning hs, heq] at hfewer
    exact Nat.lt_irrefl _ hfewer
  · intro hsettled
    exact meaning_congr fun place hp => (hsettled place hp).shown_eq

end Script

-- ---------------------------------------------------------------------------
-- Rendering
-- ---------------------------------------------------------------------------

theorem render?_eq_shown {script : Script} (h : script.WellFormed) {data : Json}
    (hd : data.BraceFree) :
    render? (.ofList script.source) data =
      some (.ofList (script.meaning Call.shown (.root data))) := by
  have hn : script.nesting < (String.ofList script.source).length + extraDepth := by
    have hl := script.nesting_le_length
    rw [String.length_ofList, extraDepth]
    omega
  have hr := faithful_renderWithin _ (.root data) script hd h hn
  rw [render?, String.toList_ofList, hr, script.sources_rendered_root]
  rfl

/-- The output is as promised just if every call that is reached can be made where it stands, or
is written with a space and can be made at no level around. -/
theorem render?_eq_promised_iff {script : Script} (h : script.WellFormed) {data : Json}
    (hd : data.BraceFree) :
    render? (.ofList script.source) data =
        some (.ofList (script.meaning Call.shown (.root data))) ∧
      (render? (.ofList script.source) data =
          some (.ofList (script.meaning Call.promised (.root data))) ↔
        ∀ place ∈ script.reached (.root data), place.2.IsSettled place.1) := by
  have hshown := render?_eq_shown h hd
  refine ⟨hshown, ?_⟩
  rw [hshown, Option.some.injEq, String.ofList_inj]
  exact h.meaning_shown_eq_iff hd

/-- One call that is made and one that is not, for each of the items. -/
def signatures : Script :=
  .block .each "xs".toList (.flat
    [.invoke ⟨"titleCase".toList, [' '], "x".toList⟩, .text [','],
      .invoke ⟨"shout".toList, ['\t', ' '], "x".toList⟩, .text [';']])

theorem render?_signatures :
    let data : Json := .object [("xs", .array
      [.object [("x", .string "john_smith")], .object [("x", .null)]])]
    signatures.WellFormed ∧ data.BraceFree ∧
      (∀ place ∈ signatures.reached (.root data), place.2.IsSettled place.1) ∧
      render? (.ofList signatures.source) data =
        some ("John Smith,\x7b\x7bshout\t x\x7d\x7d;" ++
          "\x7b\x7btitleCase x\x7d\x7d,\x7b\x7bshout\t x\x7d\x7d;") := by
  intro data
  have hpath : IsPath "x".toList := ⟨by decide, by decide, by decide⟩
  have hcall (helper blanks : List Char) (hh : IsPath helper) (hne : blanks ≠ [])
      (hb : ∀ c ∈ blanks, Text.isBlank c = true) :
      (Leaf.invoke ⟨helper, blanks, "x".toList⟩).WellFormed := ⟨hh, hne, hb, hpath⟩
  have htext {chars : List Char} (h : '{' ∉ chars) : (Leaf.text chars).WellFormed := h
  have hw : signatures.WellFormed := by
    refine ⟨⟨by decide, by decide, by decide⟩, ?_⟩
    simp only [Script.WellFormed, List.forall_mem_cons]
    exact ⟨hcall _ _ ⟨by decide, by decide, by decide⟩ (by decide) (by decide), htext (by decide),
      hcall _ _ ⟨by decide, by decide, by decide⟩ (by decide) (by decide), htext (by decide),
      List.forall_mem_nil _⟩
  have hd : data.BraceFree := by
    refine .object fun member hm => ?_
    cases List.mem_singleton.mp hm
    refine .array fun item hi => ?_
    simp only [List.mem_cons, List.not_mem_nil, or_false] at hi
    rcases hi with rfl | rfl <;> refine .object fun member hm => ?_ <;>
      cases List.mem_singleton.mp hm
    · exact .string (by decide)
    · exact .null
  have hsettled : ∀ place ∈ signatures.reached (.root data), place.2.IsSettled place.1 := by
    decide +kernel
  refine ⟨hw, hd, hsettled, ((render?_eq_promised_iff hw hd).2.mpr hsettled).trans ?_⟩
  decide +kernel

/-- A call with a tab in it is erased where it cannot be made, and a call whose argument is null
is made by the level around. -/
theorem unsettled_calls_are_lost :
    let shout : Call := ⟨"shout".toList, ['\t'], "name".toList⟩
    let title : Call := ⟨"titleCase".toList, [' '], "x".toList⟩
    let shouts : Script := .flat [.invoke shout]
    let titles : Script := .block .each "xs".toList (.flat [.invoke title])
    let data : Json := .object [("name", .string "x"), ("x", .string "foo"),
      ("xs", .array [.object [("x", .null)]])]
    shouts.meaning Call.promised (.root data) = shout.source ∧
      render? (.ofList shouts.source) data = some "" ∧
      titles.meaning Call.promised (.root data) = title.source ∧
      render? (.ofList titles.source) data = some "Foo" := by
  decide +kernel

end Folio.Template
