import Folio.Proofs.Template.Meaning
import Folio.Proofs.Template.Places
import Folio.Proofs.Text.Separator

/-!
# Values stay as they are

What a page does with a string of its data is to repeat it: a string without braces can be put
in at the end, in the place of a mark that stood for it. This fails for strings with braces,
which later passes take for tags.
-/

namespace Folio.Template

open Json (Datum Place)

-- ---------------------------------------------------------------------------
-- Texts with holes
-- ---------------------------------------------------------------------------

/-- A text with holes in it. -/
abbrev Weave := List (Option Char)

def Weave.fill (value : List Char) (weave : Weave) : List Char :=
  weave.flatMap fun
    | none => value
    | some c => [c]

/-- The texts are one text with holes, where the character is not, filled with the strings. -/
def Woven (c : Char) (text : String → List Char) : Prop :=
  ∃ weave : Weave, some c ∉ weave ∧ ∀ s, s ≠ "" → text s = weave.fill s.toList

section
variable {c : Char}

theorem Weave.fill_append (value : List Char) (first second : Weave) :
    fill value (first ++ second) = first.fill value ++ second.fill value :=
  List.flatMap_append

theorem Weave.fill_map_some (value chars : List Char) :
    Weave.fill value (chars.map some) = chars := by
  induction chars with
  | nil => rfl
  | cons d chars ih => exact congrArg (d :: ·) ih

theorem woven_fixed {chars : List Char} (h : c ∉ chars) : Woven c fun _ => chars :=
  ⟨chars.map some, by simpa using h, fun s _ => (Weave.fill_map_some s.toList chars).symm⟩

theorem woven_hole : Woven c String.toList :=
  ⟨[none], by simp, fun s _ => (List.append_nil s.toList).symm⟩

theorem Woven.congr {text more : String → List Char} (h : Woven c more)
    (he : ∀ s, s ≠ "" → text s = more s) : Woven c text := by
  obtain ⟨weave, hw, hm⟩ := h
  exact ⟨weave, hw, fun s hs => (he s hs).trans (hm s hs)⟩

theorem Woven.append {text more : String → List Char} (h : Woven c text) (hm : Woven c more) :
    Woven c fun s => text s ++ more s := by
  obtain ⟨first, hf, ht⟩ := h
  obtain ⟨second, hs, hm⟩ := hm
  refine ⟨first ++ second, by simp [hf, hs], fun s hn => ?_⟩
  simp only [ht s hn, hm s hn, Weave.fill_append]

theorem woven_flatten {parts : List (String → List Char)} (h : ∀ part ∈ parts, Woven c part) :
    Woven c fun s => (parts.map (· s)).flatten := by
  induction parts with
  | nil => exact woven_fixed (by simp)
  | cons part parts ih =>
    obtain ⟨hp, hr⟩ := List.forall_mem_cons.mp h
    exact hp.append (ih hr)

theorem woven_intercalate {separator : List Char} (hs : c ∉ separator)
    {parts : List (String → List Char)} (h : ∀ part ∈ parts, Woven c part) :
    Woven c fun s => List.intercalate separator (parts.map (· s)) := by
  induction parts with
  | nil => exact woven_fixed (by simp)
  | cons part parts ih =>
    obtain ⟨hp, hr⟩ := List.forall_mem_cons.mp h
    cases parts with
    | nil => simpa using hp
    | cons next parts =>
      simp only [List.map_cons, List.intercalate_cons_cons]
      exact (hp.append (woven_fixed hs)).append (ih hr)

end

-- ---------------------------------------------------------------------------
-- Texts of values
-- ---------------------------------------------------------------------------

/-- The characters that texts of values can hold beside those of strings. -/
def IsScaffold (c : Char) : Prop :=
  Decimal.IsNumberChar c ∨ c ∈ "nulltruefalse,[object Object]".toList

instance : DecidablePred IsScaffold := by
  unfold IsScaffold
  infer_instance

section
variable {c : Char}

theorem notMem_of_not_isScaffold (hc : ¬ IsScaffold c) {chars : List Char}
    (h : ∀ d ∈ chars, IsScaffold d) : c ∉ chars :=
  fun hm => hc (h c hm)

theorem looseText_notMem (hc : ¬ IsScaffold c) {value : Json} (h : value.Lacks c) :
    c ∉ value.looseText := by
  induction h with
  | null => exact notMem_of_not_isScaffold hc (by decide)
  | bool b => cases b <;> exact notMem_of_not_isScaffold hc (by decide)
  | number n => exact fun hm => hc (.inl (n.isNumberText_looseText c hm))
  | string h => simpa using h
  | @array items _ ih =>
    rw [Json.looseText_array, Json.looseTexts_eq_map]
    refine Json.notMem_intercalate (notMem_of_not_isScaffold hc (by decide)) fun part hp => ?_
    obtain ⟨item, hi, rfl⟩ := List.mem_map.mp hp
    split
    · exact List.not_mem_nil
    · exact ih item hi
  | object _ _ =>
    rw [Json.looseText_object]
    exact notMem_of_not_isScaffold hc (by decide)

theorem isNull_put (place : Place) (s : String) : (place.put s).isNull = false := by
  cases place <;> rfl

/-- The text of an item of a list. -/
def itemText (item : Json) : List Char :=
  if item.isNull then [] else item.looseText

theorem woven_itemText (hc : ¬ IsScaffold c) {item : Json} (h : item.Lacks c) :
    Woven c fun _ => itemText item := by
  refine woven_fixed ?_
  unfold itemText
  split
  · exact List.not_mem_nil
  · exact looseText_notMem hc h

theorem woven_looseText (hc : ¬ IsScaffold c) {place : Place} (h : place.Lacks c) :
    Woven c fun s => (place.put s).looseText := by
  induction place with
  | here => simpa [Place.put] using woven_hole
  | member before key place after ih =>
    simp only [Place.put, Json.looseText_object]
    exact woven_fixed (notMem_of_not_isScaffold hc (by decide))
  | item before place after ih =>
    obtain ⟨hb, hp, ha⟩ := h
    have hitem (s : String) : itemText (place.put s) = (place.put s).looseText := by
      simp [itemText, isNull_put]
    have hitems : ∀ part ∈ before.map (fun item _ => itemText item) ++
        (fun s => itemText (place.put s)) :: after.map (fun item _ => itemText item),
          Woven c part := by
      simp only [hitem, List.forall_mem_append, List.forall_mem_cons, List.forall_mem_map]
      exact ⟨fun item hi => woven_itemText hc (hb item hi), ih hp,
        fun item hi => woven_itemText hc (ha item hi)⟩
    have hcomma : c ∉ [','] := notMem_of_not_isScaffold hc (by decide)
    have hall := woven_intercalate hcomma hitems
    simpa [Place.put, Json.looseTexts_eq_map, itemText, Function.comp_def] using hall

theorem notMem_display (hc : ¬ IsScaffold c) {value : Option Json} (h : ∀ v ∈ value, v.Lacks c) :
    c ∉ display value := by
  unfold display
  split
  · exact List.not_mem_nil
  · exact List.not_mem_nil
  · exact looseText_notMem hc (h _ rfl)

theorem woven_display (hc : ¬ IsScaffold c) {found : String → Option Json} (h : Uniform c found) :
    Woven c fun s => display (found s) := by
  obtain ⟨datum, hd, hf⟩ := h
  simp only [hf]
  rcases datum with _ | value | place
  · exact woven_fixed List.not_mem_nil
  · show Woven c fun _ => display (some value)
    refine woven_fixed (notMem_display hc ?_)
    rintro v ⟨⟩
    exact hd _ rfl
  · have hplace : (fun s => display (some (place.put s))) = fun s => (place.put s).looseText := by
      funext s
      cases place <;> rfl
    show Woven c fun s => display (some (place.put s))
    rw [hplace]
    exact woven_looseText hc (hd _ rfl)

/-- A string that is not empty counts as much as any other. -/
theorem exists_truthy (datum : Datum) : ∃ holds, ∀ s, s ≠ "" → (datum.put s).truthy = holds := by
  cases datum with
  | fixed value => exact ⟨value.truthy, fun s _ => rfl⟩
  | around place =>
    refine ⟨true, fun s hs => ?_⟩
    cases place with
    | here => simpa [Datum.put, Place.put, Json.truthy] using hs
    | item | member => rfl

-- ---------------------------------------------------------------------------
-- What templates mean
-- ---------------------------------------------------------------------------

/-- A list has the same items, whatever string is put in. -/
theorem exists_items {datum : Datum} (h : datum.Lacks c) :
    (∃ items : List Datum, (∀ item ∈ items, item.Lacks c) ∧
        ∀ s, datum.put s = .array (items.map (Datum.put s))) ∨
      ∀ s items, datum.put s ≠ .array items := by
  rcases datum with value | place
  · cases value with
    | array items =>
      cases h with
      | array h =>
        refine .inl ⟨items.map .fixed, List.forall_mem_map.mpr h, fun s => ?_⟩
        simp [Datum.put, Function.comp_def]
    | _ => exact .inr fun s items => by simp [Datum.put]
  · cases place with
    | item before place after =>
      obtain ⟨hb, hp, ha⟩ := h
      refine .inl ⟨before.map .fixed ++ .around place :: after.map .fixed, ?_, fun s => ?_⟩
      · simp only [List.forall_mem_append, List.forall_mem_cons, List.forall_mem_map]
        exact ⟨hb, hp, ha⟩
      · simp [Datum.put, Place.put, Function.comp_def]
    | _ => exact .inr fun s items => by simp [Datum.put, Place.put]

/-- What a template means repeats the string, and is otherwise the same for all strings. -/
theorem Markup.woven_meaning (hc : ¬ IsScaffold c) {markup : Markup} (hm : c ∉ markup.source)
    {frame : Frame} (hf : frame.Lacks c) : Woven c fun s => markup.meaning (frame.put s) := by
  induction markup generalizing frame with
  | text chars => exact woven_fixed hm
  | plain path => exact woven_display hc (Frame.uniform_resolve hf path)
  | raw path => exact woven_display hc (Frame.uniform_resolve hf path)
  | append first second ih ih' =>
    simp only [source, List.mem_append, not_or] at hm
    exact (ih hm.1 hf).append (ih' hm.2 hf)
  | block b path body ih =>
    simp only [source, List.mem_append, not_or] at hm
    -- The path leads to one part of the data, so the same turns are made for every string.
    obtain ⟨datum, hd, hr⟩ := Frame.uniform_resolve hf path
    rcases datum with _ | datum
    · cases b <;>
        · simp only [meaning, hr]
          exact woven_fixed List.not_mem_nil
    · cases b with
      | each =>
        simp only [meaning, hr, Option.map_some]
        rcases exists_items (hd datum rfl) with ⟨items, hl, hi⟩ | hn
        · have hparts : ∀ part ∈ items.mapIdx (fun index item s =>
              body.meaning ((Frame.item item index items.length frame).put s)), Woven c part := by
            intro part hp
            obtain ⟨index, hx, rfl⟩ := List.mem_mapIdx.mp hp
            exact ih hm.1.2 ⟨hl _ (List.getElem_mem hx), hf⟩
          refine (woven_flatten hparts).congr fun s _ => ?_
          simp only [hi]
          refine congrArg List.flatten (List.ext_getElem (by simp) fun index _ _ => ?_)
          simp [Frame.put]
        · refine (woven_fixed List.not_mem_nil).congr fun s _ => ?_
          split
          · next items heq => exact absurd (Option.some.inj heq) (hn s items)
          · rfl
      | cond =>
        obtain ⟨holds, ht⟩ := exists_truthy datum
        simp only [meaning, hr, Option.map_some]
        cases holds with
        | true => exact (ih hm.1.2 hf).congr fun s hs => by simp [ht s hs]
        | false => exact (woven_fixed List.not_mem_nil).congr fun s hs => by simp [ht s hs]

end

-- ---------------------------------------------------------------------------
-- Marks
-- ---------------------------------------------------------------------------

/-- Puts the value in the place of every occurrence of the mark, from the left. -/
def replaceAll (mark value text : List Char) : List Char :=
  match mark, text with
  | [], text => text
  | _ :: _, [] => []
  | m :: mark, c :: others =>
    match _h : afterMark? (m :: mark) (c :: others) with
    | some rest => value ++ replaceAll (m :: mark) value rest
    | none => c :: replaceAll (m :: mark) value others
termination_by text.length
decreasing_by
  · rw [afterMark?_eq_some.mp _h]
    simp only [List.length_append, List.length_cons]
    omega
  · simp

theorem replaceAll_nil (mark value : List Char) : replaceAll mark value [] = [] := by
  cases mark <;> simp [replaceAll]

theorem replaceAll_mark {mark : List Char} (h : mark ≠ []) (value rest : List Char) :
    replaceAll mark value (mark ++ rest) = value ++ replaceAll mark value rest := by
  obtain ⟨m, mark, rfl⟩ := List.exists_cons_of_ne_nil h
  have hafter : afterMark? (m :: mark) (m :: (mark ++ rest)) = some rest :=
    afterMark?_eq_some.mpr rfl
  rw [List.cons_append, replaceAll]
  split
  · next rest' heq =>
    cases hafter.symm.trans heq
    rfl
  · next heq => cases hafter.symm.trans heq

theorem replaceAll_cons {mark : List Char} (value : List Char) {c : Char} {others : List Char}
    (h : afterMark? mark (c :: others) = none) :
    replaceAll mark value (c :: others) = c :: replaceAll mark value others := by
  cases mark with
  | nil => cases h
  | cons m mark =>
    rw [replaceAll]
    split
    · next heq => cases h.symm.trans heq
    · rfl

/-- A mark that starts in front of a hole does not end in it: its own character, which stands
nowhere else, would come too late. -/
theorem Weave.append_fill_ne {before after : List Char} {own : Char} (hb : own ∉ before)
    {weave : Weave} (hw : some own ∉ weave) {text : List Char} (ht : own ∉ text)
    (hn : text ≠ []) (rest : List Char) :
    text ++ weave.fill (before ++ own :: after) ≠ before ++ own :: after ++ rest := by
  induction weave generalizing text with
  | nil =>
    intro h
    have hmem : own ∈ text ++ fill (before ++ own :: after) [] := by
      rw [h]
      simp
    exact ht (by simpa [fill] using hmem)
  | cons hole weave ih =>
    obtain ⟨hh, hr⟩ := not_or.mp (mt List.mem_cons.mpr hw)
    cases hole with
    | none =>
      intro h
      -- Both sides have the character first in the mark, but not at the same distance.
      have hfront : text ++ before = before :=
        (Text.eq_of_append_cons (by simp [ht, hb]) hb (by simpa [fill] using h)).1
      exact hn (List.append_left_eq_self.mp hfront)
    | some c =>
      have hc : own ≠ c := fun heq => hh (congrArg some heq)
      have hstart : own ∉ text ++ [c] := by simp [ht, hc]
      have hmore := ih hr hstart (by simp)
      rw [List.append_assoc] at hmore
      exact hmore

/-- Where strings stand in a text is where the mark stands, so all marks are replaced by the
string and nothing else is. -/
theorem Weave.replaceAll_fill {mark : List Char} {own : Char} (ho : own ∈ mark) {weave : Weave}
    (hw : some own ∉ weave) (value : List Char) :
    replaceAll mark value (weave.fill mark) = weave.fill value := by
  obtain ⟨before, after, rfl, hb⟩ := List.eq_append_cons_of_mem ho
  induction weave with
  | nil => exact replaceAll_nil _ value
  | cons hole weave ih =>
    obtain ⟨hh, hr⟩ := not_or.mp (mt List.mem_cons.mpr hw)
    cases hole with
    | none => exact (replaceAll_mark (by simp) value _).trans (congrArg (value ++ ·) (ih hr))
    | some c =>
      have hc : own ∉ [c] := by
        simpa using fun heq => hh (congrArg some heq)
      refine (replaceAll_cons value ?_).trans (congrArg (c :: ·) (ih hr))
      refine Option.eq_none_iff_forall_ne_some.mpr fun rest hrest => ?_
      exact append_fill_ne hb hr hc (by simp) rest (afterMark?_eq_some.mp hrest)

-- ---------------------------------------------------------------------------
-- Pages
-- ---------------------------------------------------------------------------

/-- A character that nothing puts into a page but the string in the place. -/
structure IsOwn (own : Char) (markup : Markup) (place : Place) : Prop where
  source : own ∉ markup.source
  data : place.Lacks own
  scaffold : ¬ IsScaffold own

/-- With no brace in its data, a page is what its template means. -/
theorem render?_put {markup : Markup} (h : markup.WellFormed) {place : Place}
    (hd : place.Lacks '{') {s : String} (hs : '{' ∉ s.toList) :
    render? (.ofList markup.source) (place.put s) =
      some (.ofList (markup.meaning (.root (place.put s)))) := by
  have hdeep : markup.nesting < (String.ofList markup.source).length + extraDepth := by
    have hlength := markup.nesting_le_length
    rw [String.length_ofList, extraDepth]
    omega
  have hfree : (Scope.root (place.put s)).BraceFree := (hd.put hs).braceFree
  have hpage := renderWithin_faithful _ _ markup hfree h hdeep
  rw [render?, String.toList_ofList, hpage]
  rfl

/-- A page repeats a string of its data and does nothing else with it, as long as the data has
no braces: it is the page for a mark in that place, with the string for the mark. -/
theorem render?_replaced {markup : Markup} (h : markup.WellFormed) {place : Place}
    (hd : place.Lacks '{') {mark value : String} {own : Char} (ho : own ∈ mark.toList)
    (hown : IsOwn own markup place) (hm : '{' ∉ mark.toList) (hv : '{' ∉ value.toList)
    (hn : value ≠ "") :
    ∃ page, render? (.ofList markup.source) (place.put mark) = some page ∧
      render? (.ofList markup.source) (place.put value) =
        some (.ofList (replaceAll mark.toList value.toList page.toList)) := by
  have hframe : (Frame.root (.around place)).Lacks own := hown.data
  obtain ⟨weave, hw, hmeaning⟩ := Markup.woven_meaning hown.scaffold hown.source hframe
  have hmark : mark ≠ "" := by
    rintro rfl
    cases ho
  have hpage : markup.meaning (.root (place.put mark)) = weave.fill mark.toList :=
    hmeaning mark hmark
  have hvalue : markup.meaning (.root (place.put value)) = weave.fill value.toList :=
    hmeaning value hn
  refine ⟨_, render?_put h hd hm, ?_⟩
  rw [render?_put h hd hv, String.toList_ofList, hpage, hvalue, Weave.replaceAll_fill ho hw]

/-- Two tags, the second of which can be any string. -/
def twoTags : Place :=
  .member [] "tags" (.item [.string "x"] .here []) []

theorem twoTags_replaced :
    twoTags.Lacks '{' ∧ IsOwn '§' listing twoTags ∧
      ∃ page, render? (.ofList listing.source) (twoTags.put "§") = some page ∧
        render? (.ofList listing.source) (twoTags.put "1 < 2\x7d") =
          some (.ofList (replaceAll "§".toList "1 < 2\x7d".toList page.toList)) := by
  have hlisting : listing.WellFormed :=
    ⟨(by decide : '{' ∉ "all: ".toList), ⟨by decide, by decide, by decide⟩,
      ⟨by decide, by decide, by decide⟩, ⟨by decide, by decide, by decide⟩,
      (by decide : '{' ∉ "!".toList)⟩
  have hlacks (c : Char) (h : c ≠ 'x') : twoTags.Lacks c := by
    refine ⟨by simp, ⟨fun value hv => ?_, trivial, by simp⟩, by simp⟩
    obtain rfl := List.mem_singleton.mp hv
    exact .string (by simpa using h)
  have hown : IsOwn '§' listing twoTags := ⟨by decide, hlacks '§' (by decide), by decide⟩
  have hbrace : twoTags.Lacks '{' := hlacks '{' (by decide)
  exact ⟨hbrace, hown,
    render?_replaced hlisting hbrace (by decide) hown (by decide) (by decide) (by decide)⟩

/-- A value and a secret beside it. -/
def besideSecret : Place :=
  .member [] "x" .here [("y", .string "secret")]

/-- A value that holds a tag is read as template: the page shows what the tag names. -/
theorem tag_in_value_is_read :
    (Markup.raw ['x']).WellFormed ∧ besideSecret.Lacks '{' ∧
      IsOwn '§' (.raw ['x']) besideSecret ∧
      render? (.ofList (Markup.raw ['x']).source) (besideSecret.put "§") = some "§" ∧
      replaceAll "§".toList "\x7b\x7by\x7d\x7d".toList "§".toList =
        "\x7b\x7by\x7d\x7d".toList ∧
      render? (.ofList (Markup.raw ['x']).source) (besideSecret.put "\x7b\x7by\x7d\x7d") =
        some "secret" := by
  have hlacks (c : Char) (h : c ∉ "secret".toList) : besideSecret.Lacks c := by
    refine ⟨by simp, trivial, fun m hm => ?_⟩
    obtain rfl := List.mem_singleton.mp hm
    exact .string h
  refine ⟨⟨by decide, by decide, by decide⟩, hlacks '{' (by decide),
    ⟨by decide, hlacks '§' (by decide), by decide⟩, ?_, ?_, ?_⟩
  · decide +kernel
  · decide +kernel
  · decide +kernel

end Folio.Template
