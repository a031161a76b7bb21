import Folio.Proofs.Template.Markup

/-!
# Templates with helper calls

A call that cannot be made is left in the text, and the level around reads it again. So a
template is not rendered to mere text here but to leaves: what a level leaves of each of them,
and what is left of a body once the level of its block has gone over it as well.
-/

namespace Folio.Template

structure Call where
  helper : List Char
  blanks : List Char
  argument : List Char

namespace Call

/-- What stands between the marks of a call. -/
def run (call : Call) : List Char :=
  call.helper ++ (call.blanks ++ call.argument)

def source (call : Call) : List Char :=
  callTag.source call.run

structure WellFormed (call : Call) : Prop where
  helper : IsPath call.helper
  blanks_ne_nil : call.blanks ≠ []
  blanks : ∀ c ∈ call.blanks, Text.isBlank c = true
  argument : IsPath call.argument

/-- What the passes of one level put in the place of a call. A call that cannot be made is a
plain tag for the last pass, which leaves it only if it has a space. -/
def outcome? (scope : Scope) (call : Call) : Option (List Char) :=
  match applyHelper scope call.helper call.argument with
  | some text => some text
  | none => if ' ' ∈ call.blanks then none else some (display (scope.resolve call.run))

end Call

/-- What a template is made of apart from its blocks. -/
inductive Leaf where
  | text (chars : List Char)
  | plain (path : List Char)
  | raw (path : List Char)
  | invoke (call : Call)

namespace Leaf

def source : Leaf → List Char
  | .text chars => chars
  | .plain path => plainTag.source path
  | .raw path => rawTag.source path
  | .invoke call => call.source

def WellFormed : Leaf → Prop
  | .text chars => '{' ∉ chars
  | .plain path => IsPath path
  | .raw path => IsPath path
  | .invoke call => call.WellFormed

def fillRaw (scope : Scope) : Leaf → Leaf
  | .raw path => .text (display (scope.resolve path))
  | leaf => leaf

def fillCall (scope : Scope) : Leaf → Leaf
  | .invoke call => ((applyHelper scope call.helper call.argument).map text).getD (.invoke call)
  | leaf => leaf

def fillPlain (scope : Scope) : Leaf → Leaf
  | .plain path => .text (display (scope.resolve path))
  | .invoke call =>
    if ' ' ∈ call.blanks then .invoke call else .text (display (scope.resolve call.run))
  | leaf => leaf

/-- What the tag passes of a level leave. -/
def fill (scope : Scope) (leaf : Leaf) : Leaf :=
  ((leaf.fillRaw scope).fillCall scope).fillPlain scope

@[simp] theorem fill_text (scope : Scope) (chars : List Char) :
    (text chars).fill scope = .text chars := rfl

@[simp] theorem fill_plain (scope : Scope) (path : List Char) :
    (plain path).fill scope = .text (display (scope.resolve path)) := rfl

@[simp] theorem fill_raw (scope : Scope) (path : List Char) :
    (raw path).fill scope = .text (display (scope.resolve path)) := rfl

theorem fill_invoke (scope : Scope) (call : Call) :
    (Leaf.invoke call).fill scope = ((call.outcome? scope).map text).getD (.invoke call) := by
  cases ha : applyHelper scope call.helper call.argument with
  | some text => simp [fill, fillRaw, fillCall, fillPlain, Call.outcome?, ha]
  | none =>
    simp only [fill, fillRaw, fillCall, Call.outcome?, ha, Option.map_none, Option.getD_none,
      fillPlain]
    split <;> rfl

/-- What a level leaves it leaves again. -/
theorem fill_fill (scope : Scope) (leaf : Leaf) :
    (leaf.fill scope).fill scope = leaf.fill scope := by
  cases leaf with
  | text | plain | raw => rfl
  | invoke call =>
    rw [fill_invoke]
    cases ho : call.outcome? scope with
    | some text => rfl
    | none => simp [fill_invoke, ho]

end Leaf

/-- The leaves as they stand side by side. -/
def sources (leaves : List Leaf) : List Char :=
  leaves.flatMap Leaf.source

inductive Script where
  | flat (leaves : List Leaf)
  | block (b : Block) (path : List Char) (body : Script)
  | append (first second : Script)

/-- The scopes in which the body of a block is rendered, one after the other. -/
def Block.turns : Block → Scope → List Char → List Scope
  | .each, scope, path =>
    match scope.resolve path with
    | some (.array items) =>
      items.mapIdx fun index item => .item item index items.length scope
    | _ => []
  | .cond, scope, path =>
    match scope.resolve path with
    | some value => if value.truthy then [scope] else []
    | none => []

namespace Script

def source : Script → List Char
  | .flat leaves => sources leaves
  | .block b path body => b.kind.opening.source (' ' :: path) ++ body.source ++ b.kind.closing
  | .append first second => first.source ++ second.source

def WellFormed : Script → Prop
  | .flat leaves => ∀ leaf ∈ leaves, leaf.WellFormed
  | .block _ path body => IsPath path ∧ body.WellFormed
  | .append first second => first.WellFormed ∧ second.WellFormed

def nesting : Script → Nat
  | .flat _ => 0
  | .block _ _ body => body.nesting + 1
  | .append first second => max first.nesting second.nesting

/-- What rendering leaves. What is left of a body is a part of the text around it, and its calls
are read again there. -/
def rendered : Script → Scope → List Leaf
  | .flat leaves, scope => leaves.map (Leaf.fill scope)
  | .block b path body, scope =>
    ((b.turns scope path).flatMap fun inner => body.rendered inner).map (Leaf.fill scope)
  | .append first second, scope => first.rendered scope ++ second.rendered scope

theorem nesting_le_length (script : Script) : script.nesting ≤ script.source.length := by
  induction script with
  | flat => exact Nat.zero_le _
  | block b path body ih =>
    have hc := List.length_pos_iff.mpr b.kind.closing_ne_nil
    simp only [nesting, source, List.length_append]
    omega
  | append first second ih ih' =>
    simp only [nesting, source, List.length_append]
    omega

theorem fill_of_mem_rendered {script : Script} {scope : Scope} {leaf : Leaf}
    (h : leaf ∈ script.rendered scope) : leaf.fill scope = leaf := by
  induction script with
  | flat | block =>
    obtain ⟨other, -, rfl⟩ := List.mem_map.mp h
    exact Leaf.fill_fill scope other
  | append first second ih ih' =>
    rcases List.mem_append.mp h with h | h
    · exact ih h
    · exact ih' h

end Script

-- ---------------------------------------------------------------------------
-- Data without braces
-- ---------------------------------------------------------------------------

section
variable {scope : Scope}

theorem Block.eq_of_mem_turns_cond {inner : Scope} {path : List Char}
    (h : inner ∈ Block.cond.turns scope path) : inner = scope := by
  rw [turns] at h
  split at h
  · split at h
    · exact List.mem_singleton.mp h
    · cases h
  · cases h

theorem Block.exists_of_mem_turns_each {inner : Scope} {path : List Char}
    (h : inner ∈ Block.each.turns scope path) :
    ∃ items : List Json, scope.resolve path = some (.array items) ∧
      ∃ element ∈ items, ∃ index, inner = .item element index items.length scope := by
  rw [turns] at h
  split at h
  · rename_i items hr
    obtain ⟨index, hindex, rfl⟩ := List.mem_mapIdx.mp h
    exact ⟨items, hr, _, List.getElem_mem hindex, index, rfl⟩
  · cases h

theorem Block.braceFree_of_mem_turns {b : Block} {path : List Char} {inner : Scope}
    (hs : scope.BraceFree) (h : inner ∈ b.turns scope path) : inner.BraceFree := by
  cases b with
  | each =>
    obtain ⟨items, hr, element, he, index, rfl⟩ := exists_of_mem_turns_each h
    have hitems := hs.of_resolve hr
    cases hitems with
    | array hi => exact ⟨hi element he, hs⟩
  | cond => rwa [eq_of_mem_turns_cond h]

/-- Only the small letters are the small form of others. -/
theorem eq_of_toUpper_eq {c d : Char} (h : d.toUpper = c) (hc : c.isUpper = false) : d = c := by
  unfold Char.toUpper at h
  split at h
  · rename_i hl
    subst h
    unfold Char.isUpper at hc
    simp only [ge_iff_le, UInt32.le_iff_toNat_le, UInt32.toNat_add] at hc hl
    simp at hc hl
    omega
  · exact h

theorem brace_notMem_titleCase {text : List Char} (h : '{' ∉ text) (inWord : Bool) :
    '{' ∉ titleCase inWord text := by
  induction text generalizing inWord with
  | nil => exact List.not_mem_nil
  | cons c text ih =>
    rw [List.mem_cons, not_or] at h
    rw [titleCase, List.mem_cons, not_or]
    refine ⟨?_, ih h.2 _⟩
    have hc : ∀ d, d ≠ '{' → '{' ≠ if isWordChar d && !inWord then d.toUpper else d := by
      intro d hd
      split
      · exact fun he => hd (eq_of_toUpper_eq he.symm (by decide))
      · exact hd.symm
    by_cases hu : c = '_'
    · simp [hu]
    · simpa [hu] using hc c (Ne.symm h.1)

theorem brace_notMem_applyHelper (hs : scope.BraceFree) {helper argument text : List Char}
    (h : applyHelper scope helper argument = some text) : '{' ∉ text := by
  unfold applyHelper at h
  split at h
  · split at h
    · cases h
    · cases h
    · rename_i value _ hr
      cases h
      exact brace_notMem_titleCase (hs.of_resolve hr).looseText_notMem false
  · cases h

theorem brace_notMem_display (hs : scope.BraceFree) (path : List Char) :
    '{' ∉ display (scope.resolve path) :=
  display_notMem fun _ hv => hs.of_resolve hv

theorem Call.brace_notMem_outcome? (hs : scope.BraceFree) {call : Call} {text : List Char}
    (h : call.outcome? scope = some text) : '{' ∉ text := by
  unfold outcome? at h
  split at h
  · rename_i other ha
    cases h
    exact brace_notMem_applyHelper hs ha
  · split at h
    · cases h
    · cases h
      exact brace_notMem_display hs call.run

theorem Leaf.WellFormed.fill {leaf : Leaf} (h : leaf.WellFormed) (hs : scope.BraceFree) :
    (leaf.fill scope).WellFormed := by
  cases leaf with
  | text => exact h
  | plain path => exact brace_notMem_display hs path
  | raw path => exact brace_notMem_display hs path
  | invoke call =>
    rw [fill_invoke]
    cases ho : call.outcome? scope with
    | some text => exact Call.brace_notMem_outcome? hs ho
    | none => exact h

theorem Script.WellFormed.rendered {script : Script} (h : script.WellFormed)
    (hs : scope.BraceFree) : ∀ leaf ∈ script.rendered scope, leaf.WellFormed := by
  induction script generalizing scope with
  | flat leaves => exact List.forall_mem_map.mpr fun leaf hm => (h leaf hm).fill hs
  | block b path body ih =>
    simp only [Script.rendered, List.forall_mem_map, List.forall_mem_flatMap]
    intro inner hi leaf hm
    exact (ih h.2 (Block.braceFree_of_mem_turns hs hi) leaf hm).fill hs
  | append first second ih ih' =>
    exact List.forall_mem_append.mpr ⟨ih h.1 hs, ih' h.2 hs⟩

end

end Folio.Template
