import Folio.Text.Blank

/-!
# Tags

A tag is an opening mark, a run of characters without `}`, and a closing mark.
Each kind of tag says which runs it admits. In a text a tag is looked for at each
place from the left, and what one tag has taken belongs to no other.
-/

namespace Folio.Template

/-- What follows `mark` in a text that begins with it. -/
def afterMark? : List Char → List Char → Option (List Char)
  | [], text => some text
  | _ :: _, [] => none
  | m :: mark, c :: text => if m = c then afterMark? mark text else none

theorem afterMark?_eq_some {mark text rest : List Char} :
    afterMark? mark text = some rest ↔ text = mark ++ rest := by
  induction mark generalizing text with
  | nil => simp [afterMark?]
  | cons m mark ih =>
    cases text with
    | nil => simp [afterMark?]
    | cons c text =>
      by_cases h : m = c
      · simp [afterMark?, h, ih]
      · simp [afterMark?, h, Ne.symm h]

structure Tag where
  opening : List Char
  closing : List Char
  admits : List Char → Bool
  opening_ne_nil : opening ≠ []

namespace Tag

/-- The run of a tag at the front of a text, and what follows the tag. -/
def match? (tag : Tag) (text : List Char) : Option (List Char × List Char) := do
  let inside ← afterMark? tag.opening text
  let rest ← afterMark? tag.closing (inside.dropWhile (· ≠ '}'))
  let run := inside.takeWhile (· ≠ '}')
  if tag.admits run then some (run, rest) else none

/-- The tag as it stands in a text. -/
def source (tag : Tag) (run : List Char) : List Char :=
  tag.opening ++ run ++ tag.closing

theorem eq_source_append {tag : Tag} {text run rest : List Char}
    (h : tag.match? text = some (run, rest)) : text = tag.source run ++ rest := by
  simp only [match?, Option.bind_eq_bind, Option.bind_eq_some_iff] at h
  obtain ⟨inside, hi, after, ha, h⟩ := h
  split at h
  · simp only [Option.some.injEq, Prod.mk.injEq] at h
    obtain ⟨rfl, rfl⟩ := h
    rw [afterMark?_eq_some.mp hi, source, List.append_assoc, List.append_assoc,
      ← afterMark?_eq_some.mp ha, List.takeWhile_append_dropWhile]
  · cases h

theorem length_lt_of_match? {tag : Tag} {text run rest : List Char}
    (h : tag.match? text = some (run, rest)) : rest.length < text.length := by
  rw [eq_source_append h]
  have := List.length_pos_iff.mpr tag.opening_ne_nil
  simp only [source, List.length_append]
  omega

/-- Replaces every tag of the kind. -/
def replace (tag : Tag) (replacement : List Char → List Char) (text : List Char) : List Char :=
  match text with
  | [] => []
  | c :: others =>
    match _h : tag.match? (c :: others) with
    | some (run, rest) => replacement run ++ tag.replace replacement rest
    | none => c :: tag.replace replacement others
termination_by text.length
decreasing_by
  · exact length_lt_of_match? _h
  · simp

end Tag

/-- The run of a block's opening tag: white space and at least one character more. -/
def isBlockRun (run : List Char) : Bool :=
  match run with
  | c :: _ :: _ => Text.isBlank c
  | _ => false

def isPlainChar (c : Char) : Bool :=
  c ≠ '#' && c ≠ '/'

/-- The run of a helper call, cut at the last white space that its name can end at. -/
def splitCall? (run : List Char) : Option (List Char × List Char) :=
  go [] run none
where
  /-- `before` is the part of the run already passed, reversed. -/
  go (before : List Char) (run : List Char) (found : Option (List Char × List Char)) :
      Option (List Char × List Char) :=
    match run with
    | [] => found
    | c :: rest =>
      let found :=
        if Text.isBlank c && !before.isEmpty && !rest.isEmpty then some (before.reverse, rest)
        else found
      if isPlainChar c then go (c :: before) rest found else found

def eachTag : Tag :=
  ⟨"\x7b\x7b#each".toList, ['}', '}'], isBlockRun, by decide⟩

def ifTag : Tag :=
  ⟨"\x7b\x7b#if".toList, ['}', '}'], isBlockRun, by decide⟩

def rawTag : Tag :=
  ⟨['{', '{', '{'], ['}', '}', '}'], fun run => !run.isEmpty, by decide⟩

def callTag : Tag :=
  ⟨['{', '{'], ['}', '}'], fun run => (splitCall? run).isSome, by decide⟩

def plainTag : Tag :=
  ⟨['{', '{'], ['}', '}'], fun run => !run.isEmpty && run.all isPlainChar, by decide⟩

end Folio.Template
