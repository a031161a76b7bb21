import Folio.Proofs.Attempt
import Folio.Template.Render
import Mathlib.Order.WellFounded

/-!
# Where rendering ends

Rendering a text calls for the bodies of its blocks: those of loops, which stand in the
text itself, and those of conditionals, which stand in what the passes before them made of
it. Rendering ends just when no chain of such calls goes on for ever.

A loop's body is shorter than the text around it. A conditional's body can come out of
a value and hold that value again, so chains through conditionals need not end.
-/

namespace Folio.Template

open Attempt (isSome_mapM mapM_mono)

/-- A text to be rendered, and the scope of its place. -/
structure Job where
  scope : Scope
  text : List Char

def Renderer.run (render : Renderer) (job : Job) : Option (List Char) :=
  render job.scope job.text

/-- Finitely many items need no more depth than one of them does. -/
theorem exists_depth {α : Type} {items : List α} {P : Nat → α → Prop}
    (hp : ∀ {depth more item}, depth ≤ more → P depth item → P more item)
    (h : ∀ item ∈ items, ∃ depth, P depth item) : ∃ depth, ∀ item ∈ items, P depth item := by
  induction items with
  | nil => exact ⟨0, by simp⟩
  | cons item items ih =>
    obtain ⟨⟨depth, hd⟩, hrest⟩ := List.forall_mem_cons.mp h
    obtain ⟨more, hm⟩ := ih hrest
    refine ⟨max depth more, List.forall_mem_cons.mpr ⟨hp (Nat.le_max_left ..) hd, ?_⟩⟩
    exact fun other ho => hp (Nat.le_max_right ..) (hm other ho)

-- ---------------------------------------------------------------------------
-- The calls of a pass
-- ---------------------------------------------------------------------------

/-- A loop calls for its body once for each element of its list. -/
def Scope.loopJobs (scope : Scope) (path body : List Char) : List Job :=
  match scope.resolve path with
  | some (.array items) =>
    (items.mapIdx fun index item => Scope.item item index items.length scope).map (⟨·, body⟩)
  | _ => []

/-- A conditional calls for its body when its condition holds. -/
def Scope.ifJobs (scope : Scope) (path body : List Char) : List Job :=
  match scope.resolve path with
  | some value => if value.truthy then [⟨scope, body⟩] else []
  | none => []

/-- What is called for by the blocks of a text. -/
def BlockKind.called (kind : BlockKind) (jobs : List Char → List Char → List Job)
    (text : List Char) : List Job :=
  (kind.cut text).flatMap fun
    | .gap _ => []
    | .block run body => jobs (Text.trim run) body

/-- A pass over the blocks of a text. A block becomes what its calls give. -/
def BlockKind.pass (kind : BlockKind) (jobs : List Char → List Char → List Job)
    (render : Renderer) (text : List Char) : Option (List Char) :=
  kind.replace (fun path body => ((jobs path body).mapM render.run).map List.flatten) text

theorem renderEach_eq (render : Renderer) (scope : Scope) (path body : List Char) :
    renderEach render scope path body =
      ((scope.loopJobs path body).mapM render.run).map List.flatten := by
  unfold renderEach Scope.loopJobs
  cases scope.resolve path with
  | none => rfl
  | some value =>
    cases value with
    | array items =>
      simp only [List.mapM_map, Option.map_eq_bind]
      rfl
    | _ => rfl

theorem renderIf_eq (render : Renderer) (scope : Scope) (path body : List Char) :
    renderIf render scope path body =
      ((scope.ifJobs path body).mapM render.run).map List.flatten := by
  unfold renderIf Scope.ifJobs
  cases scope.resolve path with
  | none => rfl
  | some value =>
    cases ht : value.truthy with
    | false => simp [ht]
    | true =>
      cases hr : render scope body <;> simp [ht, Renderer.run, hr]

theorem expandLoops_eq (render : Renderer) (scope : Scope) :
    expandLoops render scope = eachBlock.pass scope.loopJobs render := by
  unfold expandLoops BlockKind.pass
  simp only [funext₂ (renderEach_eq render scope)]

theorem replace_renderIf_eq (render : Renderer) (scope : Scope) :
    ifBlock.replace (renderIf render scope) = ifBlock.pass scope.ifJobs render := by
  unfold BlockKind.pass
  rw [funext₂ (renderIf_eq render scope)]

section
variable {kind : BlockKind} {jobs : List Char → List Char → List Job} {render other : Renderer}
  {text out : List Char}

theorem BlockKind.isSome_pass :
    (kind.pass jobs render text).isSome ↔
      ∀ job ∈ kind.called jobs text, (render.run job).isSome := by
  have hflat {γ : Type} (parts : Option (List (List γ))) :
      (parts >>= fun parts => pure parts.flatten).isSome = parts.isSome := by
    cases parts <;> rfl
  unfold pass replace called
  rw [hflat, isSome_mapM]
  simp only [List.forall_mem_flatMap]
  refine forall₂_congr fun piece _ => ?_
  cases piece with
  | gap gap => simp
  | block run body => rw [Option.isSome_map, isSome_mapM]

/-- What one renderer gives, the other gives as well. -/
def Renderer.Extends (other render : Renderer) : Prop :=
  ∀ job out, render.run job = some out → other.run job = some out

theorem Renderer.Extends.pass (h : other.Extends render)
    (hp : kind.pass jobs render text = some out) : kind.pass jobs other text = some out := by
  unfold BlockKind.pass BlockKind.replace at hp ⊢
  simp only [Option.bind_eq_bind, Option.bind_eq_some_iff] at hp ⊢
  obtain ⟨parts, hm, ho⟩ := hp
  refine ⟨parts, mapM_mono (fun piece part hpart => ?_) hm, ho⟩
  cases piece with
  | gap gap => exact hpart
  | block run body =>
    obtain ⟨results, hr, hf⟩ := Option.map_eq_some_iff.mp hpart
    exact Option.map_eq_some_iff.mpr ⟨results, mapM_mono h hr, hf⟩

end

section
variable {render other : Renderer} {scope : Scope} {passes : Nat} {text out : List Char}

theorem resolveIfs_of_mentionsIf (hm : mentionsIf text = true) :
    resolveIfs render scope (passes + 1) text = some out ↔
      ∃ next, ifBlock.pass scope.ifJobs render text = some next ∧
        (if next = text then some text else resolveIfs render scope passes next) = some out := by
  rw [resolveIfs, if_pos hm, replace_renderIf_eq, Option.bind_eq_bind, Option.bind_eq_some_iff]

theorem resolveIfs_of_not_mentionsIf (hm : ¬ mentionsIf text = true) :
    resolveIfs render scope passes text = some text := by
  cases passes with
  | zero => rfl
  | succ passes => rw [resolveIfs, if_neg hm]

theorem Renderer.Extends.resolveIfs (h : other.Extends render)
    (hr : Template.resolveIfs render scope passes text = some out) :
    Template.resolveIfs other scope passes text = some out := by
  induction passes generalizing text with
  | zero => exact hr
  | succ passes ih =>
    by_cases hm : mentionsIf text = true
    · obtain ⟨next, hn, hr⟩ := (resolveIfs_of_mentionsIf hm).mp hr
      refine (resolveIfs_of_mentionsIf hm).mpr ⟨next, h.pass hn, ?_⟩
      by_cases he : next = text
      · rwa [if_pos he] at hr ⊢
      · rw [if_neg he] at hr ⊢
        exact ih hr
    · rw [resolveIfs_of_not_mentionsIf hm] at hr ⊢
      exact hr

end

theorem renderWithin_succ (depth : Nat) :
    Renderer.Extends (renderWithin (depth + 1)) (renderWithin depth) := by
  induction depth with
  | zero =>
    intro job out h
    cases h
  | succ depth ih =>
    intro job out h
    rw [Renderer.run, renderWithin, expandLoops_eq] at h ⊢
    simp only [Option.bind_eq_bind, Option.bind_eq_some_iff] at h ⊢
    obtain ⟨looped, hl, resolved, hr, ho⟩ := h
    exact ⟨looped, ih.pass hl, resolved, ih.resolveIfs hr, ho⟩

theorem renderWithin_mono {depth more : Nat} (h : depth ≤ more) :
    Renderer.Extends (renderWithin more) (renderWithin depth) := by
  induction h with
  | refl => exact fun _ _ hr => hr
  | step _ ih => exact fun job out hr => renderWithin_succ _ job out (ih job out hr)

-- ---------------------------------------------------------------------------
-- Calls
-- ---------------------------------------------------------------------------

namespace Job

variable (job other : Job)

def EndsWithin (depth : Nat) : Prop :=
  (Renderer.run (renderWithin depth) job).isSome

def Ends : Prop :=
  ∃ depth, job.EndsWithin depth

/-- The texts that the passes over conditionals come to, and after how many of them. -/
inductive Reaches : Nat → List Char → Prop
  | loops (depth : Nat) {text : List Char}
      (h : expandLoops (renderWithin depth) job.scope job.text = some text) : Reaches 0 text
  | pass (depth : Nat) {passes : Nat} {text next : List Char} (h : Reaches passes text)
      (hl : passes < maxPasses) (hm : mentionsIf text = true)
      (hn : ifBlock.replace (renderIf (renderWithin depth) job.scope) text = some next)
      (hc : next ≠ text) : Reaches (passes + 1) next

/-- The body of a loop is rendered for one of its elements. -/
def CallsInLoop : Prop :=
  other ∈ eachBlock.called job.scope.loopJobs job.text

/-- The body of a conditional is rendered in one of the passes over conditionals. -/
def CallsInConditional : Prop :=
  ∃ passes text, job.Reaches passes text ∧ passes < maxPasses ∧ mentionsIf text = true ∧
    other ∈ ifBlock.called job.scope.ifJobs text

def Calls : Prop :=
  job.CallsInLoop other ∨ job.CallsInConditional other

variable {job other}

theorem EndsWithin.mono {depth more : Nat} (hl : depth ≤ more) (h : job.EndsWithin depth) :
    job.EndsWithin more := by
  obtain ⟨out, ho⟩ := Option.isSome_iff_exists.mp h
  exact Option.isSome_iff_exists.mpr ⟨out, renderWithin_mono hl job out ho⟩

/-- Rendering within a depth ends only when the two kinds of passes do. -/
theorem endsWithin_succ {depth : Nat} :
    job.EndsWithin (depth + 1) ↔
      ∃ text out, eachBlock.pass job.scope.loopJobs (renderWithin depth) job.text = some text ∧
        resolveIfs (renderWithin depth) job.scope maxPasses text = some out := by
  rw [EndsWithin, Renderer.run, renderWithin, expandLoops_eq]
  simp only [Option.isSome_iff_exists, Option.bind_eq_bind, Option.bind_eq_some_iff]
  constructor
  · rintro ⟨out, text, ht, resolved, hr, -⟩
    exact ⟨text, resolved, ht, hr⟩
  · rintro ⟨text, resolved, ht, hr⟩
    exact ⟨_, text, ht, resolved, hr, rfl⟩

/-- What two depths give is the same. -/
theorem pass_unique {kind : BlockKind} {jobs : List Char → List Char → List Job}
    {text out next : List Char} {depth more : Nat}
    (h : kind.pass jobs (renderWithin depth) text = some out)
    (hn : kind.pass jobs (renderWithin more) text = some next) : out = next := by
  have hout := (renderWithin_mono (Nat.le_max_left depth more)).pass h
  have hnext := (renderWithin_mono (Nat.le_max_right depth more)).pass hn
  exact Option.some.inj (hout.symm.trans hnext)

/-- The texts that are reached are those that a renderer of enough depth goes through. -/
theorem Reaches.resolveIfs {depth passes : Nat} {looped out text : List Char}
    (hl : eachBlock.pass job.scope.loopJobs (renderWithin depth) job.text = some looped)
    (hr : Template.resolveIfs (renderWithin depth) job.scope maxPasses looped = some out)
    (h : job.Reaches passes text) :
    ∃ left, passes + left = maxPasses ∧
      Template.resolveIfs (renderWithin depth) job.scope left text = some out := by
  induction h with
  | loops _ h =>
    rw [expandLoops_eq] at h
    rw [pass_unique h hl]
    exact ⟨maxPasses, Nat.zero_add _, hr⟩
  | @pass more passes text next _ hp hm hn hc ih =>
    obtain ⟨left, hleft, ih⟩ := ih
    obtain ⟨left, rfl⟩ := Nat.exists_eq_succ_of_ne_zero (show left ≠ 0 by omega)
    obtain ⟨other, ho, ih⟩ := (resolveIfs_of_mentionsIf hm).mp ih
    -- The pass that was reached and the renderer's own pass need not be of one depth.
    rw [replace_renderIf_eq] at hn
    cases pass_unique hn ho
    rw [if_neg hc] at ih
    exact ⟨left, by omega, ih⟩

theorem EndsWithin.of_calls {depth : Nat} (h : job.EndsWithin (depth + 1))
    (hc : job.Calls other) : other.EndsWithin depth := by
  obtain ⟨looped, out, hl, hr⟩ := endsWithin_succ.mp h
  rcases hc with hc | ⟨passes, text, ht, hp, hm, hc⟩
  · exact BlockKind.isSome_pass.mp (Option.isSome_of_eq_some hl) other hc
  · obtain ⟨left, hleft, hr⟩ := ht.resolveIfs hl hr
    obtain ⟨left, rfl⟩ := Nat.exists_eq_succ_of_ne_zero (show left ≠ 0 by omega)
    obtain ⟨next, hn, -⟩ := (resolveIfs_of_mentionsIf hm).mp hr
    exact BlockKind.isSome_pass.mp (Option.isSome_of_eq_some hn) other hc

/-- A pass ends when each of its calls does. -/
theorem exists_pass {kind : BlockKind} {jobs : List Char → List Char → List Job}
    {text : List Char} (h : ∀ other ∈ kind.called jobs text, other.Ends) :
    ∃ depth out, kind.pass jobs (renderWithin depth) text = some out := by
  obtain ⟨depth, hd⟩ := exists_depth (P := fun depth job => EndsWithin job depth)
    EndsWithin.mono h
  exact ⟨depth, Option.isSome_iff_exists.mp (BlockKind.isSome_pass.mpr hd)⟩

theorem Reaches.exists_resolveIfs (hc : ∀ other, job.Calls other → other.Ends) (left : Nat)
    {passes : Nat} {text : List Char} (h : job.Reaches passes text)
    (hl : passes + left = maxPasses) :
    ∃ depth out, Template.resolveIfs (renderWithin depth) job.scope left text = some out := by
  -- Induction on the passes that are left; each of them needs a depth of its own.
  induction left generalizing passes text with
  | zero => exact ⟨0, text, rfl⟩
  | succ left ih =>
    have hp : passes < maxPasses := by omega
    by_cases hm : mentionsIf text = true
    · obtain ⟨depth, next, hn⟩ := exists_pass fun other ho =>
        hc other (.inr ⟨passes, text, h, hp, hm, ho⟩)
      by_cases he : next = text
      · exact ⟨depth, text, (resolveIfs_of_mentionsIf hm).mpr ⟨next, hn, if_pos he⟩⟩
      · have hreached : job.Reaches (passes + 1) next :=
          .pass depth h hp hm (by rw [replace_renderIf_eq, hn]) he
        obtain ⟨more, out, ho⟩ := ih hreached (by omega)
        refine ⟨max depth more, out, (resolveIfs_of_mentionsIf hm).mpr ⟨next, ?_, ?_⟩⟩
        · exact (renderWithin_mono (Nat.le_max_left ..)).pass hn
        · rw [if_neg he]
          exact (renderWithin_mono (Nat.le_max_right ..)).resolveIfs ho
    · exact ⟨0, text, resolveIfs_of_not_mentionsIf hm⟩

theorem ends_of_calls (hc : ∀ other, job.Calls other → other.Ends) : job.Ends := by
  obtain ⟨depth, looped, hl⟩ := exists_pass fun other ho => hc other (.inl ho)
  have hreached : job.Reaches 0 looped := .loops depth (by rw [expandLoops_eq, hl])
  obtain ⟨more, out, hr⟩ := hreached.exists_resolveIfs hc maxPasses (Nat.zero_add _)
  refine ⟨max depth more + 1, endsWithin_succ.mpr ⟨looped, out, ?_, ?_⟩⟩
  · exact (renderWithin_mono (Nat.le_max_left ..)).pass hl
  · exact (renderWithin_mono (Nat.le_max_right ..)).resolveIfs hr

theorem ends_iff_acc : job.Ends ↔ Acc (fun other job => Calls job other) job := by
  constructor
  · rintro ⟨depth, h⟩
    induction depth generalizing job with
    | zero => cases h
    | succ depth ih => exact .intro job fun other hc => ih (h.of_calls hc)
  · intro h
    induction h with
    | intro job _ ih => exact ends_of_calls ih

end Job

-- ---------------------------------------------------------------------------
-- Chains of calls
-- ---------------------------------------------------------------------------

/-- Each text calls for the next one. -/
def Endless (chain : Nat → Job) : Prop :=
  ∀ n, (chain n).Calls (chain (n + 1))

theorem Job.not_ends_iff {job : Job} :
    ¬ job.Ends ↔ ∃ chain, chain 0 = job ∧ Endless chain := by
  rw [Job.ends_iff_acc]
  exact not_acc_iff_exists_descending_chain

theorem mem_prependGap {text run body : List Char} {pieces : List Piece} :
    .block run body ∈ prependGap text pieces ↔ .block run body ∈ pieces := by
  cases pieces with
  | nil => simp [prependGap]
  | cons piece pieces => cases piece <;> simp [prependGap]

theorem length_body_lt {kind : BlockKind} {text run body : List Char}
    (h : .block run body ∈ kind.cut text) : body.length < text.length := by
  fun_induction kind.cut text with
  | case1 => cases h
  | case2 c others other rest hm inner after hc ih =>
    have hrest := Tag.length_lt_of_match? hm
    have hclose := BlockKind.length_lt_of_close? hc
    rcases List.mem_cons.mp h with he | h
    · cases he
      omega
    · have hbody := ih h
      omega
  | case3 c others other rest hm hc ih =>
    have hrest := Tag.length_lt_of_match? hm
    have hbody := ih (mem_prependGap.mp h)
    omega
  | case4 c others hm ih =>
    have hbody := ih (mem_prependGap.mp h)
    simp only [List.length_cons]
    omega

theorem Job.CallsInLoop.length_lt {job other : Job} (h : job.CallsInLoop other) :
    other.text.length < job.text.length := by
  obtain ⟨piece, hp, ho⟩ := List.mem_flatMap.mp h
  cases piece with
  | gap gap => cases ho
  | block run body =>
    have htext : other.text = body := by
      simp only [Scope.loopJobs] at ho
      split at ho
      · obtain ⟨inner, -, rfl⟩ := List.mem_map.mp ho
        rfl
      · cases ho
    rw [htext]
    exact length_body_lt hp

/-- Loops alone come to an end, so a chain without one goes through conditionals for ever. -/
theorem Endless.exists_conditional {chain : Nat → Job} (h : Endless chain) (n : Nat) :
    ∃ m, n ≤ m ∧ (chain m).CallsInConditional (chain (m + 1)) := by
  -- Induction on the length of the text, which every loop makes shorter.
  generalize hl : (chain n).text.length = length
  induction length using Nat.strongRecOn generalizing n with
  | ind length ih =>
    rcases h n with hloop | hcond
    · have hlt := hloop.length_lt
      obtain ⟨m, hm, hcond⟩ := ih _ (hl ▸ hlt) (n + 1) rfl
      exact ⟨m, Nat.le_of_succ_le hm, hcond⟩
    · exact ⟨n, Nat.le_refl n, hcond⟩

/-- Rendering gives a page within some depth unless there is a chain of calls without an end,
and in such a chain the bodies of conditionals are called for again and again. -/
theorem renders_iff_not_endless (template : String) (data : Json) :
    ((∃ depth page, renderWithin depth (.root data) template.toList = some page) ↔
        ¬ ∃ chain, chain 0 = ⟨.root data, template.toList⟩ ∧ Endless chain) ∧
      ∀ chain, chain 0 = ⟨.root data, template.toList⟩ → Endless chain →
        ∀ n, ∃ m, n ≤ m ∧ (chain m).CallsInConditional (chain (m + 1)) := by
  refine ⟨?_, fun chain _ h => h.exists_conditional⟩
  rw [← Job.not_ends_iff, not_not]
  simp only [Job.Ends, Job.EndsWithin, Option.isSome_iff_exists]
  rfl

/-- A conditional that is filled with a value. -/
def selfReference : String :=
  "\x7b\x7b#if x\x7d\x7d\x7b\x7bx\x7d\x7d\x7b\x7b/if\x7d\x7d"

/-- The value is a conditional around the template that it fills. -/
def selfReferring : Json :=
  .object [("x", .string ("\x7b\x7b#if x\x7d\x7d" ++ selfReference ++ "\x7b\x7b/if\x7d\x7d"))]

theorem selfReference_calls_itself :
    Job.Calls ⟨.root selfReferring, selfReference.toList⟩
      ⟨.root selfReferring, selfReference.toList⟩ := by
  have hloops : Job.Reaches ⟨.root selfReferring, selfReference.toList⟩ 0
      selfReference.toList := .loops 0 (by decide +kernel)
  have hfilled : Job.Reaches ⟨.root selfReferring, selfReference.toList⟩ 1
      ("\x7b\x7b#if x\x7d\x7d" ++ selfReference ++ "\x7b\x7b/if\x7d\x7d").toList :=
    .pass 1 hloops (by decide) (by decide) (by decide +kernel) (by decide)
  have hblock : .block [' ', 'x'] selfReference.toList ∈ ifBlock.cut
      ("\x7b\x7b#if x\x7d\x7d" ++ selfReference ++ "\x7b\x7b/if\x7d\x7d").toList := by
    decide +kernel
  refine .inr ⟨1, _, hfilled, by decide, by decide, List.mem_flatMap.mpr ⟨_, hblock, ?_⟩⟩
  exact List.mem_singleton.mpr rfl

/-- No depth is enough for a template that its own data calls for again. -/
theorem selfReference_is_endless :
    (∃ chain, chain 0 = ⟨.root selfReferring, selfReference.toList⟩ ∧ Endless chain) ∧
      (∀ depth, renderWithin depth (.root selfReferring) selfReference.toList = none) ∧
      render? selfReference selfReferring = none := by
  have hchain : ∃ chain, chain 0 = ⟨.root selfReferring, selfReference.toList⟩ ∧
      Endless chain := ⟨fun _ => _, rfl, fun _ => selfReference_calls_itself⟩
  have hnone (depth : Nat) :
      renderWithin depth (.root selfReferring) selfReference.toList = none := by
    refine Option.eq_none_iff_forall_ne_some.mpr fun page hp => ?_
    exact Job.not_ends_iff.mpr hchain ⟨depth, Option.isSome_iff_exists.mpr ⟨page, hp⟩⟩
  exact ⟨hchain, hnone, by rw [render?, hnone, Option.map_none]⟩

end Folio.Template
