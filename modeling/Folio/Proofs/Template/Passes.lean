import Folio.Proofs.Template.Calls
import Folio.Proofs.Template.Scanning

/-!
# What one pass does

A pass leaves the text of another template: blocks of its kind have become the leaves that are
left of their bodies, or leaves of its kind have become text, and the rest stands as it was.
Rendering leaves the same of the templates before and after a pass.
-/

namespace Folio.Template

namespace Script

/-- The template when its blocks of one kind have become what is left of their bodies. -/
def settled (b : Block) (scope : Scope) : Script → Script
  | .flat leaves => .flat leaves
  | .block other path body =>
    if other = b then .flat ((other.turns scope path).flatMap body.rendered)
    else .block other path (body.settled b scope)
  | .append first second => .append (first.settled b scope) (second.settled b scope)

def Lacks (b : Block) : Script → Prop
  | .flat _ => True
  | .block other _ body => other ≠ b ∧ body.Lacks b
  | .append first second => first.Lacks b ∧ second.Lacks b

theorem settled_lacks (b : Block) (scope : Scope) (script : Script) :
    (script.settled b scope).Lacks b := by
  induction script with
  | flat => trivial
  | block other path body ih =>
    rw [settled]
    split
    · trivial
    · exact ⟨‹_›, ih⟩
  | append first second ih ih' => exact ⟨ih, ih'⟩

theorem Lacks.settled {b : Block} {script : Script} (h : script.Lacks b) (other : Block)
    (scope : Scope) : (script.settled other scope).Lacks b := by
  induction script with
  | flat => trivial
  | block kind path body ih =>
    rw [Script.settled]
    split
    · trivial
    · exact ⟨h.1, ih h.2⟩
  | append first second ih ih' => exact ⟨ih h.1, ih' h.2⟩

theorem WellFormed.settled {script : Script} (h : script.WellFormed) (b : Block) {scope : Scope}
    (hs : scope.BraceFree) : (script.settled b scope).WellFormed := by
  induction script with
  | flat => exact h
  | block other path body ih =>
    rw [Script.settled]
    split
    · exact List.forall_mem_flatMap.mpr fun inner hi =>
        h.2.rendered (Block.braceFree_of_mem_turns hs hi)
    · exact ⟨h.1, ih h.2⟩
  | append first second ih ih' => exact ⟨ih h.1, ih' h.2⟩

theorem nesting_settled (b : Block) (scope : Scope) (script : Script) :
    (script.settled b scope).nesting ≤ script.nesting := by
  induction script with
  | flat => exact Nat.le_refl _
  | block other path body ih =>
    rw [settled]
    split
    · exact Nat.zero_le _
    · exact Nat.succ_le_succ ih
  | append first second ih ih' =>
    simp only [settled, nesting]
    omega

/-- Bodies of conditionals are in the scope around them, so loops in them can be settled there. -/
theorem rendered_settled {b : Block} {script : Script} (h : b = .each ∨ script.Lacks .each)
    (scope : Scope) : (script.settled b scope).rendered scope = script.rendered scope := by
  induction script with
  | flat => rfl
  | block other path body ih =>
    rw [settled]
    split
    · rfl
    · rename_i hne
      cases other with
      | each =>
        -- Bodies of loops have scopes of their own, in which nothing may be settled.
        rcases h with rfl | h
        · exact absurd rfl hne
        · exact absurd rfl h.1
      | cond =>
        have hbody : (Block.cond.turns scope path).flatMap (body.settled b scope).rendered =
            (Block.cond.turns scope path).flatMap body.rendered := by
          refine List.flatMap_congr fun inner hi => ?_
          rw [Block.eq_of_mem_turns_cond hi]
          exact ih (h.imp_right And.right)
        simp only [rendered, hbody]
  | append first second ih ih' =>
    simp only [settled, rendered, ih (h.imp_right And.left), ih' (h.imp_right And.right)]

theorem settled_eq_self {b : Block} {script : Script} (h : script.Lacks b) (scope : Scope) :
    script.settled b scope = script := by
  induction script with
  | flat => rfl
  | block other path body ih => rw [settled, if_neg h.1, ih h.2]
  | append first second ih ih' => rw [settled, ih h.1, ih' h.2]

/-- A template without blocks is a row of leaves. -/
theorem WellFormed.exists_leaves {script : Script} (h : script.WellFormed)
    (he : script.Lacks .each) (hc : script.Lacks .cond) :
    ∃ leaves : List Leaf, (∀ leaf ∈ leaves, leaf.WellFormed) ∧
      script.source = sources leaves ∧
      ∀ scope, script.rendered scope = leaves.map (Leaf.fill scope) := by
  induction script with
  | flat leaves => exact ⟨leaves, h, rfl, fun _ => rfl⟩
  | block b path body =>
    cases b with
    | each => exact absurd rfl he.1
    | cond => exact absurd rfl hc.1
  | append first second ih ih' =>
    obtain ⟨leaves, hl, hs, hr⟩ := ih h.1 he.1 hc.1
    obtain ⟨others, hl', hs', hr'⟩ := ih' h.2 he.2 hc.2
    refine ⟨leaves ++ others, List.forall_mem_append.mpr ⟨hl, hl'⟩, ?_, fun scope => ?_⟩
    · rw [source, hs, hs', sources, sources, sources, List.flatMap_append]
    · rw [Script.rendered, hr, hr', List.map_append]

end Script

-- ---------------------------------------------------------------------------
-- Passes over blocks
-- ---------------------------------------------------------------------------

/-- A pass over blocks settles them when it renders the body of each in its turns. -/
theorem Script.WellFormed.replace_source {script : Script} (h : script.WellFormed) {b : Block}
    {scope : Scope} {depth : Nat} (hn : script.nesting ≤ depth)
    {render : List Char → List Char → Option (List Char)}
    (hr : ∀ path (body : Script), IsPath path → body.WellFormed → body.nesting < depth →
      render path body.source = some (sources ((b.turns scope path).flatMap body.rendered)))
    (rest : List Char) :
    b.kind.replace render (script.source ++ rest) =
      (b.kind.replace render rest).map ((script.settled b scope).source ++ ·) := by
  induction script generalizing rest with
  | flat leaves =>
    exact BlockKind.replace_absent render (b.opening_eq ▸ absent_sources h (by decide) _) rest
  | block other path body ih =>
    obtain ⟨hp, hb⟩ := h
    rw [source, List.append_assoc, List.append_assoc]
    by_cases heq : other = b
    · subst heq
      have hclose : other.kind.close? 1 (body.source ++ (other.kind.closing ++ rest)) =
          some (body.source, rest) := by
        rw [hb.close?_source other (Nat.le_refl 1),
          BlockKind.close?_of_closing (other.match?_closing rest) (afterMark?_append _ _),
          if_pos (Nat.le_refl 1)]
        simp
      -- The body is not looked into: the renderer has it as it stands.
      have hbody := hr path body hp hb hn
      rw [BlockKind.replace_of_match render (hp.match?_block other _) hclose
        (by rw [hp.trim_space, hbody]), Script.settled, if_pos rfl]
      rfl
    · have hne := Ne.symm heq
      rw [BlockKind.replace_absent render (Block.absent_opening hne hp).1,
        ih hb (Nat.le_of_succ_le hn), BlockKind.replace_absent render (Block.absent_closing hne).1,
        Script.settled, if_neg heq]
      simp [source, Option.map_map, Function.comp_def]
  | append first second ih ih' =>
    simp only [nesting] at hn
    rw [source, List.append_assoc, ih h.1 (by omega), ih' h.2 (by omega)]
    simp [Script.settled, source, Option.map_map, Function.comp_def]

/-- What the pass over blocks of a kind makes of their paths and bodies. -/
def Block.renderer (b : Block) (render : Renderer) (scope : Scope) (path body : List Char) :
    Option (List Char) :=
  match b with
  | .each => renderEach render scope path body
  | .cond => renderIf render scope path body

/-- The calls of a block are for its turns. -/
theorem Block.renderer_eq (b : Block) (render : Renderer) (scope : Scope)
    (path body : List Char) :
    b.renderer render scope path body =
      ((b.turns scope path).mapM fun inner => render inner body).map List.flatten := by
  cases b with
  | each =>
    have hjobs : scope.loopJobs path body = (Block.each.turns scope path).map (⟨·, body⟩) := by
      simp only [Scope.loopJobs, turns]
      cases scope.resolve path with
      | none => rfl
      | some value => cases value <;> rfl
    rw [renderer, renderEach_eq, hjobs, List.mapM_map]
    rfl
  | cond =>
    have hjobs : scope.ifJobs path body = (Block.cond.turns scope path).map (⟨·, body⟩) := by
      simp only [Scope.ifJobs, turns]
      cases scope.resolve path with
      | none => rfl
      | some value => cases ht : value.truthy <;> simp [ht]
    rw [renderer, renderIf_eq, hjobs, List.mapM_map]
    rfl

/-- A renderer that leaves of every template up to a depth what is to be left of it. -/
def Renderer.Faithful (render : Renderer) (depth : Nat) : Prop :=
  ∀ (scope : Scope) (script : Script), scope.BraceFree → script.WellFormed →
    script.nesting < depth → render scope script.source = some (sources (script.rendered scope))

section
variable {render : Renderer} {depth : Nat} {scope : Scope} {script body : Script}
  {path : List Char}

theorem Renderer.Faithful.block (hf : render.Faithful depth) (hs : scope.BraceFree)
    (b : Block) (path : List Char) (hb : body.WellFormed) (hn : body.nesting < depth) :
    b.renderer render scope path body.source =
      some (sources ((b.turns scope path).flatMap body.rendered)) := by
  have hturns : ∀ inner ∈ b.turns scope path,
      render inner body.source = some (sources (body.rendered inner)) := fun inner hi =>
    hf inner body (Block.braceFree_of_mem_turns hs hi) hb hn
  rw [Block.renderer_eq, Attempt.mapM_eq_some hturns, Option.map_some, ← List.flatMap_def, sources,
    List.flatMap_assoc]
  rfl

theorem Renderer.Faithful.replace_kind (hf : render.Faithful depth) (hs : scope.BraceFree)
    (h : script.WellFormed) (hn : script.nesting ≤ depth) (b : Block) :
    b.kind.replace (b.renderer render scope) script.source =
      some (script.settled b scope).source := by
  have hr := h.replace_source hn (fun path body _ hb hd => hf.block hs b path hb hd) []
  rw [List.append_nil, BlockKind.replace_nil] at hr
  refine hr.trans ?_
  simp

theorem Renderer.Faithful.expandLoops (hf : render.Faithful depth) (hs : scope.BraceFree)
    (h : script.WellFormed) (hn : script.nesting ≤ depth) :
    expandLoops render scope script.source = some (script.settled .each scope).source :=
  hf.replace_kind hs h hn .each

-- ---------------------------------------------------------------------------
-- Conditionals
-- ---------------------------------------------------------------------------

/-- What conditionals are looked for by. -/
def ifMark : List Char := ['{', '{', '#', 'i', 'f', ' ']

theorem mentionsIf_cons (c : Char) (text : List Char) :
    mentionsIf (c :: text) = ((afterMark? ifMark (c :: text)).isSome || mentionsIf text) := rfl

theorem mentionsIf_of_append (before : List Char) {text : List Char}
    (h : mentionsIf (before ++ text) = false) : mentionsIf text = false := by
  induction before with
  | nil => exact h
  | cons c before ih =>
    rw [List.cons_append, mentionsIf_cons, Bool.or_eq_false_iff] at h
    exact ih h.2

theorem mentionsIf_absent {text : List Char} (h : Absent ifMark text) (rest : List Char) :
    mentionsIf (text ++ rest) = mentionsIf rest := by
  induction text with
  | nil => rfl
  | cons c text ih =>
    have hc := h.1 rest
    rw [List.cons_append] at hc ⊢
    rw [mentionsIf_cons, hc, ih h.2]
    rfl

/-- A template has conditionals only if it holds what these are looked for by. -/
theorem Script.lacks_cond (rest : List Char) (h : mentionsIf (script.source ++ rest) = false) :
    script.Lacks .cond := by
  induction script generalizing rest with
  | flat => trivial
  | block other path body ih =>
    rw [source, List.append_assoc, List.append_assoc] at h
    refine ⟨?_, ih _ (mentionsIf_of_append _ h)⟩
    rintro rfl
    rw [Block.source_eq] at h
    have hmark : mentionsIf (ifMark ++ (path ++ ['}', '}'] ++
        (body.source ++ (Block.cond.kind.closing ++ rest)))) = true := rfl
    exact absurd (h.symm.trans hmark) Bool.false_ne_true
  | append first second ih ih' =>
    rw [source, List.append_assoc] at h
    exact ⟨ih _ h, ih' rest (mentionsIf_of_append _ h)⟩

theorem mentionsIf_sources {leaves : List Leaf} (h : ∀ leaf ∈ leaves, leaf.WellFormed) :
    mentionsIf (sources leaves) = false := by
  have hm := mentionsIf_absent (absent_sources h (by decide) _) []
  rwa [List.append_nil] at hm

theorem Renderer.Faithful.resolveIfs (hf : render.Faithful depth) (hs : scope.BraceFree)
    (h : script.WellFormed) (hn : script.nesting ≤ depth) (he : script.Lacks .each)
    (passes : Nat) :
    resolveIfs render scope (passes + 1) script.source =
      some (script.settled .cond scope).source := by
  -- One pass settles all conditionals, so it does not matter how many more are allowed.
  have hsettled : ∀ passes, Template.resolveIfs render scope passes
      (script.settled .cond scope).source = some (script.settled .cond scope).source := by
    intro passes
    obtain ⟨leaves, hl, hsource, -⟩ := (h.settled .cond hs).exists_leaves
      (he.settled .cond scope) (script.settled_lacks .cond scope)
    have hm := mentionsIf_sources hl
    rw [← hsource] at hm
    cases passes with
    | zero => rfl
    | succ passes => rw [Template.resolveIfs, hm, if_neg Bool.false_ne_true]
  have hnext : ifBlock.replace (Template.renderIf render scope) script.source =
      some (script.settled .cond scope).source := hf.replace_kind hs h hn .cond
  cases hm : mentionsIf script.source with
  | false =>
    rw [Template.resolveIfs, hm, if_neg Bool.false_ne_true,
      Script.settled_eq_self (Script.lacks_cond [] (by rwa [List.append_nil]))]
  | true =>
    rw [Template.resolveIfs, hm, if_pos rfl, hnext]
    simp only [Option.bind_eq_bind, Option.bind_some]
    split
    · rename_i heq
      rw [heq]
    · exact hsettled passes

end

-- ---------------------------------------------------------------------------
-- Passes over tags
-- ---------------------------------------------------------------------------

/-- No raw tag, as every leaf behind the pass over these. -/
def Leaf.LacksRaw : Leaf → Prop
  | .raw _ => False
  | _ => True

namespace Leaf.WellFormed

variable {leaf : Leaf} {scope : Scope}

theorem fillRaw (h : leaf.WellFormed) (hs : scope.BraceFree) :
    (leaf.fillRaw scope).WellFormed ∧ (leaf.fillRaw scope).LacksRaw := by
  cases leaf with
  | raw path => exact ⟨brace_notMem_display hs path, trivial⟩
  | text | plain | invoke => exact ⟨h, trivial⟩

theorem fillCall (h : leaf.WellFormed ∧ leaf.LacksRaw) (hs : scope.BraceFree) :
    (leaf.fillCall scope).WellFormed ∧ (leaf.fillCall scope).LacksRaw := by
  cases leaf with
  | text | plain => exact h
  | raw => exact h.2.elim
  | invoke call =>
    rw [Leaf.fillCall]
    cases ha : applyHelper scope call.helper call.argument with
    | some text => exact ⟨brace_notMem_applyHelper hs ha, trivial⟩
    | none => exact h

theorem fillRaw_append (h : leaf.WellFormed) (rest : List Char) :
    Template.fillRaw scope (leaf.source ++ rest) =
      (leaf.fillRaw scope).source ++ Template.fillRaw scope rest := by
  unfold Template.fillRaw
  cases leaf with
  | text => exact Tag.replace_absent _ (absent_of_notMem h) rest
  | plain => exact Tag.replace_absent _ (IsPath.absent_plain h (by decide) _) rest
  | invoke => exact Tag.replace_absent _ (Call.WellFormed.absent h (by decide) _) rest
  | raw path =>
    rw [source, Tag.replace_of_match (IsPath.match?_raw h rest), IsPath.trim h]
    rfl

theorem fillCalls_append (h : leaf.WellFormed ∧ leaf.LacksRaw) (rest : List Char) :
    fillCalls scope (leaf.source ++ rest) =
      (leaf.fillCall scope).source ++ fillCalls scope rest := by
  unfold fillCalls
  cases leaf with
  | text => exact Tag.replace_absent _ (absent_of_notMem h.1) rest
  | raw => exact h.2.elim
  | plain path =>
    -- Tags without blanks are no helper calls.
    have hm := IsPath.match?_call h.1 rest
    rw [plainTag_source_eq, List.cons_append] at hm
    rw [source, plainTag_source_eq, List.cons_append,
      Tag.replace_cons_of_match?_eq_none _ hm, Tag.replace_absent _ (IsPath.absent_inside h.1)]
    rfl
  | invoke call =>
    have hc : call.WellFormed := h.1
    rw [source, Tag.replace_of_match (hc.match?_call rest)]
    simp only [hc.splitCall?_run, hc.trim_helper, hc.argument.trim, Leaf.fillCall]
    cases applyHelper scope call.helper call.argument <;> rfl

theorem fillPlain_append (h : leaf.WellFormed ∧ leaf.LacksRaw) (rest : List Char) :
    Template.fillPlain scope (leaf.source ++ rest) =
      (leaf.fillPlain scope).source ++ Template.fillPlain scope rest := by
  unfold Template.fillPlain
  cases leaf with
  | text => exact Tag.replace_absent _ (absent_of_notMem h.1) rest
  | raw => exact h.2.elim
  | plain path =>
    have hp : IsPath path := h.1
    have hspace : ' ' ∉ path := fun hm => absurd (hp.isBlank ' ' hm) (by decide)
    rw [source, Tag.replace_of_match (hp.match?_plain rest), hp.trim,
      if_neg (by simpa using hspace)]
    rfl
  | invoke call =>
    have hc : call.WellFormed := h.1
    rw [source, Tag.replace_of_match (hc.match?_plain rest), hc.trim_run, hc.contains_space,
      Leaf.fillPlain]
    simp only [decide_eq_true_eq]
    split <;> rfl

end Leaf.WellFormed

/-- A pass that takes one leaf after the other. -/
theorem pass_sources (pass : List Char → List Char) {next : Leaf → Leaf} (hnil : pass [] = [])
    {leaves : List Leaf} (hstep : ∀ leaf ∈ leaves, ∀ rest,
      pass (leaf.source ++ rest) = (next leaf).source ++ pass rest) :
    pass (sources leaves) = sources (leaves.map next) := by
  induction leaves with
  | nil => exact hnil
  | cons leaf leaves ih =>
    obtain ⟨hl, hr⟩ := List.forall_mem_cons.mp hstep
    have htext : sources (leaf :: leaves) = leaf.source ++ sources leaves := rfl
    rw [htext, hl, ih hr]
    rfl

/-- The three passes over tags fill every leaf. -/
theorem fill_sources {scope : Scope} (hs : scope.BraceFree) {leaves : List Leaf}
    (h : ∀ leaf ∈ leaves, leaf.WellFormed) :
    fillPlain scope (fillCalls scope (fillRaw scope (sources leaves))) =
      sources (leaves.map (Leaf.fill scope)) := by
  have hl : ∀ leaf ∈ leaves.map (Leaf.fillRaw scope), leaf.WellFormed ∧ leaf.LacksRaw :=
    List.forall_mem_map.mpr fun leaf hm => (h leaf hm).fillRaw hs
  have hl' : ∀ leaf ∈ (leaves.map (Leaf.fillRaw scope)).map (Leaf.fillCall scope),
      leaf.WellFormed ∧ leaf.LacksRaw :=
    List.forall_mem_map.mpr fun leaf hm => Leaf.WellFormed.fillCall (hl leaf hm) hs
  rw [pass_sources (fillRaw scope) (Tag.replace_nil _) fun leaf hm =>
      (h leaf hm).fillRaw_append,
    pass_sources (fillCalls scope) (Tag.replace_nil _) fun leaf hm =>
      Leaf.WellFormed.fillCalls_append (hl leaf hm),
    pass_sources (fillPlain scope) (Tag.replace_nil _) fun leaf hm =>
      Leaf.WellFormed.fillPlain_append (hl' leaf hm),
    List.map_map, List.map_map]
  rfl

end Folio.Template
