import Folio.Proofs.Template.Passes

/-!
# The passes implement the language

Rendering never builds the tree of a template. By induction on how deep its blocks nest,
the passes over its text give what the tree means all the same: bodies nest less deep, so
the renderer of bodies may be taken to be right.
-/

namespace Folio.Template

theorem faithful_renderWithin (depth : Nat) : Renderer.Faithful (renderWithin depth) depth := by
  induction depth with
  | zero =>
    intro scope script _ _ hn
    exact absurd hn (Nat.not_lt_zero _)
  | succ depth ih =>
    intro scope script hs h hn
    have hn : script.nesting ≤ depth := Nat.le_of_lt_succ hn
    -- The template after each pass, and that rendering still leaves the same of it.
    have hlooped := h.settled .each hs
    have hloops := script.settled_lacks .each scope
    have hnested := (script.nesting_settled .each scope).trans hn
    have hconds := ih.resolveIfs hs hlooped hnested hloops 99
    obtain ⟨leaves, hl, hsource, hrendered⟩ := (hlooped.settled .cond hs).exists_leaves
      (hloops.settled .cond scope) (Script.settled_lacks .cond scope _)
    have hleft : leaves.map (Leaf.fill scope) = script.rendered scope := by
      rw [← hrendered, Script.rendered_settled (.inr hloops), Script.rendered_settled (.inl rfl)]
    rw [renderWithin, ih.expandLoops hs h hn]
    simp only [Option.bind_eq_bind, Option.bind_some, maxPasses, hconds, hsource,
      fill_sources hs hl, hleft]
    rfl

-- ---------------------------------------------------------------------------
-- Templates without helper calls
-- ---------------------------------------------------------------------------

namespace Markup

def script : Markup → Script
  | .text chars => .flat [.text chars]
  | .plain path => .flat [.plain path]
  | .raw path => .flat [.raw path]
  | .block b path body => .block b path body.script
  | .append first second => .append first.script second.script

@[simp] theorem source_script (markup : Markup) : markup.script.source = markup.source := by
  induction markup with
  | text | plain | raw => simp [script, Script.source, sources, Leaf.source, source]
  | block b path body ih => simp only [script, Script.source, source, ih]
  | append first second ih ih' => simp only [script, Script.source, source, ih, ih']

theorem WellFormed.script {markup : Markup} (h : markup.WellFormed) :
    markup.script.WellFormed := by
  induction markup with
  | text | plain | raw => exact List.forall_mem_singleton.mpr h
  | block b path body ih => exact ⟨h.1, ih h.2⟩
  | append first second ih ih' => exact ⟨ih h.1, ih' h.2⟩

@[simp] theorem nesting_script (markup : Markup) : markup.script.nesting = markup.nesting := by
  induction markup with
  | text | plain | raw => rfl
  | block b path body ih => simp only [script, Script.nesting, nesting, ih]
  | append first second ih ih' => simp only [script, Script.nesting, nesting, ih, ih']

theorem nesting_le_length (markup : Markup) : markup.nesting ≤ markup.source.length := by
  rw [← nesting_script, ← source_script]
  exact markup.script.nesting_le_length

/-- Where no calls are, nothing but text is left. -/
theorem fill_of_mem_rendered_script {markup : Markup} {scope : Scope} {leaf : Leaf}
    (h : leaf ∈ markup.script.rendered scope) (outer : Scope) : leaf.fill outer = leaf := by
  induction markup generalizing scope leaf outer with
  | text | plain | raw =>
    cases List.mem_singleton.mp h
    rfl
  | block b path body ih =>
    obtain ⟨other, ho, rfl⟩ := List.mem_map.mp h
    obtain ⟨inner, -, hm⟩ := List.mem_flatMap.mp ho
    rw [ih hm scope, ih hm outer]
  | append first second ih ih' =>
    rcases List.mem_append.mp h with h | h
    · exact ih h outer
    · exact ih' h outer

theorem meaning_block (b : Block) (path : List Char) (body : Markup) (scope : Scope) :
    (block b path body).meaning scope = (b.turns scope path).flatMap body.meaning := by
  cases b with
  | each =>
    simp only [meaning, Block.turns]
    cases scope.resolve path with
    | none => rfl
    | some value =>
      cases value with
      | array items => simp [List.flatMap_def, List.mapIdx_eq_zipIdx_map, Function.comp_def]
      | _ => rfl
  | cond =>
    simp only [meaning, Block.turns]
    cases scope.resolve path with
    | none => rfl
    | some value =>
      dsimp only
      split <;> simp

theorem sources_rendered_script (markup : Markup) (scope : Scope) :
    sources (markup.script.rendered scope) = markup.meaning scope := by
  induction markup generalizing scope with
  | text | plain | raw => exact List.append_nil _
  | block b path body ih =>
    have hfilled : ((b.turns scope path).flatMap body.script.rendered).map (Leaf.fill scope) =
        (b.turns scope path).flatMap body.script.rendered := by
      refine (List.map_congr_left fun leaf hl => ?_).trans (List.map_id _)
      obtain ⟨inner, -, hm⟩ := List.mem_flatMap.mp hl
      exact fill_of_mem_rendered_script hm scope
    rw [script, Script.rendered, hfilled, sources, List.flatMap_assoc, meaning_block]
    exact List.flatMap_congr fun inner _ => ih inner
  | append first second ih ih' =>
    rw [script, Script.rendered, meaning, ← ih, ← ih', sources, sources, sources,
      List.flatMap_append]

end Markup

theorem renderWithin_faithful (depth : Nat) (scope : Scope) (markup : Markup)
    (hs : scope.BraceFree) (h : markup.WellFormed) (hn : markup.nesting < depth) :
    renderWithin depth scope markup.source = some (markup.meaning scope) := by
  have hr := faithful_renderWithin depth scope markup.script hs h.script
    (by rwa [markup.nesting_script])
  rwa [markup.source_script, markup.sources_rendered_script] at hr

/-- Rendering a template gives what it means, whatever the data, as long as no string of
the data holds an opening brace. -/
theorem render?_eq_meaning {markup : Markup} (h : markup.WellFormed) {data : Json}
    (hd : data.BraceFree) :
    render? (.ofList markup.source) data = some (.ofList (markup.meaning (.root data))) := by
  have hn : markup.nesting < (String.ofList markup.source).length + extraDepth := by
    have hl := markup.nesting_le_length
    rw [String.length_ofList, extraDepth]
    omega
  have hr := renderWithin_faithful _ (.root data) markup hd h hn
  rw [render?, String.toList_ofList, hr]
  rfl

def listing : Markup :=
  .append (.text "all: ".toList)
    (.block .each "tags".toList
      (.append (.plain ".".toList) (.block .cond "@last".toList (.text "!".toList))))

theorem render?_listing :
    listing.WellFormed ∧ (Json.object [("tags", .array [.string "a", .string "b"])]).BraceFree ∧
      render? (.ofList listing.source) (.object [("tags", .array [.string "a", .string "b"])]) =
        some "all: ab!" := by
  have hw : listing.WellFormed :=
    ⟨(by decide : '{' ∉ "all: ".toList), ⟨by decide, by decide, by decide⟩,
      ⟨by decide, by decide, by decide⟩, ⟨by decide, by decide, by decide⟩,
      (by decide : '{' ∉ "!".toList)⟩
  have hd : (Json.object [("tags", .array [.string "a", .string "b"])]).BraceFree := by
    refine .object fun member hm => ?_
    cases List.mem_singleton.mp hm
    refine .array fun item hi => ?_
    simp only [List.mem_cons, List.not_mem_nil, or_false] at hi
    rcases hi with rfl | rfl <;> exact .string (by decide)
  refine ⟨hw, hd, (render?_eq_meaning hw hd).trans ?_⟩
  rfl

end Folio.Template
