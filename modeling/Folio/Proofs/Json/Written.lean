import Folio.Proofs.Json.ScalarText

/-!
# Reading written data

The compact text of data is read as that data, if its numbers are integers and no more
brackets are open at once than the reader allows.
-/

namespace Folio.Json

open Reading

mutual
/-- How many brackets are open at once. -/
def nesting : Json → Nat
  | .array items => nestingOfItems items + 1
  | .object members => nestingOfMembers members + 1
  | _ => 0
def nestingOfItems : List Json → Nat
  | [] => 0
  | item :: rest => max (nesting item) (nestingOfItems rest)
def nestingOfMembers : List (String × Json) → Nat
  | [] => 0
  | (_, value) :: rest => max (nesting value) (nestingOfMembers rest)
end

/-- Every number is an integer. -/
inductive Whole : Json → Prop
  | null : Whole .null
  | bool (b : Bool) : Whole (.bool b)
  | int (n : Int) : Whole (.number (.int n))
  | string (s : String) : Whole (.string s)
  | array {items : List Json} (h : ∀ item ∈ items, item.Whole) : Whole (.array items)
  | object {members : Members} (h : ∀ m ∈ members, m.2.Whole) : Whole (.object members)

@[simp] theorem whole_int (n : Int) : (int n).Whole :=
  .int n

@[simp] theorem whole_string (s : String) : (Json.string s).Whole :=
  .string s

@[simp] theorem whole_array {items : List Json} :
    (array items).Whole ↔ ∀ item ∈ items, item.Whole :=
  ⟨fun | .array h => h, .array⟩

@[simp] theorem whole_object {members : Members} :
    (object members).Whole ↔ ∀ m ∈ members, m.2.Whole :=
  ⟨fun | .object h => h, .object⟩

theorem nestingOfItems_le {items : List Json} {n : Nat} :
    nestingOfItems items ≤ n ↔ ∀ item ∈ items, item.nesting ≤ n := by
  induction items with
  | nil => simp [nestingOfItems]
  | cons item items ih => rw [nestingOfItems, Nat.max_le, ih, List.forall_mem_cons]

theorem nestingOfMembers_le {members : Members} {n : Nat} :
    nestingOfMembers members ≤ n ↔ ∀ m ∈ members, m.2.nesting ≤ n := by
  induction members with
  | nil => simp [nestingOfMembers]
  | cons m members ih => rw [nestingOfMembers, Nat.max_le, ih, List.forall_mem_cons]

-- ---------------------------------------------------------------------------
-- Entries between brackets
-- ---------------------------------------------------------------------------

/-- What may stand behind a value: nothing, a comma or a closing bracket. -/
def Closed (rest : List Char) : Prop :=
  ∀ c ∈ rest.head?, c ∈ [',', ']', '\x7d']

theorem Closed.endsNumber {rest : List Char} (h : Closed rest) : EndsNumber rest := by
  intro c hc
  have hclosing : ∀ c ∈ [',', ']', '\x7d'], c.isDigit = false ∧ c ≠ '.' ∧ c ≠ 'e' ∧ c ≠ 'E' := by
    decide
  exact hclosing c (h c hc)

/-- Further entries, each behind a comma, up to the closing bracket. -/
def entriesText (entries : List (List Char)) (close : Char) (rest : List Char) : List Char :=
  entries.flatMap (',' :: ·) ++ close :: rest

theorem entriesText_cons (entry : List Char) (entries : List (List Char)) (close : Char)
    (rest : List Char) :
    entriesText (entry :: entries) close rest =
      ',' :: (entry ++ entriesText entries close rest) := by
  simp [entriesText]

theorem intercalate_append (entry : List Char) (entries : List (List Char)) (close : Char)
    (rest : List Char) :
    List.intercalate [','] (entry :: entries) ++ close :: rest =
      entry ++ entriesText entries close rest := by
  induction entries generalizing entry with
  | nil => simp [entriesText]
  | cons next entries ih =>
    rw [List.intercalate_cons_cons, List.append_assoc, ih, entriesText_cons, List.append_assoc]
    rfl

theorem closed_entriesText (entries : List (List Char)) {close : Char}
    (hc : close ∈ [',', ']', '\x7d']) (rest : List Char) :
    Closed (entriesText entries close rest) := by
  cases entries with
  | nil =>
    rintro c ⟨⟩
    exact hc
  | cons entry entries =>
    rintro c ⟨⟩
    decide

/-- A value can start here. -/
def StartsValue (text : List Char) : Prop :=
  ∃ c rest, text = c :: rest ∧ c ∉ [' ', '\n', '\t', '\r', ',', ']']

theorem StartsValue.append {text : List Char} (h : StartsValue text) (rest : List Char) :
    StartsValue (text ++ rest) := by
  obtain ⟨c, more, rfl, hc⟩ := h
  exact ⟨c, more ++ rest, rfl, hc⟩

theorem intText_eq_cons (n : Int) :
    ∃ c rest, Number.intText n = c :: rest ∧ (c = '-' ∨ c.isDigit = true) := by
  unfold Number.intText
  split
  · exact ⟨'-', _, rfl, .inl rfl⟩
  · obtain ⟨d, others, hd⟩ :=
      List.exists_cons_of_ne_nil (Nat.toDigits_ne_nil (b := 10) (n := n.natAbs))
    have hmem : d ∈ Nat.toDigits 10 n.natAbs := by simp [hd]
    exact ⟨d, others, hd, .inr (Nat.isDigit_of_mem_toDigits (by decide) (by decide) hmem)⟩

theorem startsValue_intText (n : Int) : StartsValue (Number.intText n) := by
  obtain ⟨c, rest, hc, rfl | hd⟩ := intText_eq_cons n
  · exact ⟨'-', rest, hc, by decide⟩
  · have hstops : ∀ c ∈ [' ', '\n', '\t', '\r', ',', ']'], c.isDigit = false := by decide
    refine ⟨c, rest, hc, fun hmem => ?_⟩
    rw [hstops c hmem] at hd
    cases hd

theorem Whole.startsValue {value : Json} (h : value.Whole) : StartsValue (compact value) := by
  cases h with
  | null => exact ⟨'n', _, rfl, by decide⟩
  | bool b => cases b <;> [exact ⟨'f', _, rfl, by decide⟩; exact ⟨'t', _, rfl, by decide⟩]
  | int n => exact startsValue_intText n
  | string s => exact ⟨'"', _, rfl, by decide⟩
  | array h => exact ⟨'[', _, rfl, by decide⟩
  | object h => exact ⟨'{', _, rfl, by decide⟩

-- ---------------------------------------------------------------------------
-- Lists
-- ---------------------------------------------------------------------------

theorem gives_hasItem_close (first : Bool) (rest : List Char) :
    Gives (hasItem first) (']' :: rest) false (']' :: rest) :=
  (gives_peekToken (by rintro c ⟨⟩; rfl)).bind (gives_pure false _)

theorem StartsValue.unblanked {text : List Char} (h : StartsValue text) : Unblanked text := by
  obtain ⟨c, rest, rfl, hc⟩ := h
  rintro c ⟨⟩
  simp only [List.mem_cons, not_or] at hc
  simp [isBlank, hc]

theorem gives_hasItem_first {text : List Char} (h : StartsValue text) :
    Gives (hasItem true) text true text := by
  have hpeek := gives_peekToken h.unblanked
  obtain ⟨c, rest, rfl, hc⟩ := h
  refine hpeek.bind ?_
  split
  · next heq => cases heq
  · next heq =>
    cases heq
    exact absurd hc (by decide)
  · next heq =>
    cases heq
    exact absurd hc (by decide)
  · exact gives_pure true _

theorem gives_hasItem_next {text : List Char} (h : StartsValue text) :
    Gives (hasItem false) (',' :: text) true text := by
  have hpeek := gives_peekToken h.unblanked
  obtain ⟨c, rest, rfl, hc⟩ := h
  refine (gives_peekToken (by rintro c ⟨⟩; rfl)).bind ((gives_advance _ _).bind (hpeek.bind ?_))
  split
  · next heq =>
    cases heq
    exact absurd hc (by decide)
  · exact gives_pure true _
  · next heq => cases heq

theorem gives_leaveList (rest : List Char) : Gives leaveList (']' :: rest) () rest :=
  (gives_peekToken (by rintro c ⟨⟩; rfl)).bind (gives_advance _ rest)

/-- The reader gives each value back from its text. -/
def ReadsBack (reading : Reading Json) (values : List Json) : Prop :=
  ∀ value ∈ values, StartsValue (compact value) ∧
    ∀ rest, Closed rest → Gives reading (compact value ++ rest) value rest

/-- Reads another item in front of those read before, if there is one. -/
def itemStep (item : Reading Json) (before : List Json) : Reading (Option (List Json)) := do
  if ← hasItem before.isEmpty then return some ((← item) :: before) else return none

theorem walk_itemStep {item : Reading Json} {items : List Json} (h : ReadsBack item items)
    {before : List Json} (hb : before ≠ []) (rest : List Char) :
    Walk (itemStep item) before (entriesText (items.map compact) ']' rest)
      (items.reverse ++ before) (']' :: rest) := by
  induction items generalizing before with
  | nil => exact .stop ((gives_hasItem_close _ rest).bind (gives_pure none _))
  | cons value items ih =>
    obtain ⟨⟨hs, hv⟩, hr⟩ := List.forall_mem_cons.mp h
    have hempty : before.isEmpty = false := by simpa using hb
    have hstep : Gives (itemStep item before)
        (',' :: (compact value ++ entriesText (items.map compact) ']' rest))
        (some (value :: before)) (entriesText (items.map compact) ']' rest) := by
      unfold itemStep
      rw [hempty]
      exact (gives_hasItem_next (hs.append _)).bind
        ((hv _ (closed_entriesText _ (by decide) rest)).bind (gives_pure _ _))
    rw [List.map_cons, entriesText_cons, List.reverse_cons, List.append_assoc]
    refine .go hstep ?_ (ih hr (by simp))
    simp only [List.length_cons, List.length_append]
    omega

theorem gives_readItems {item : Reading Json} {items : List Json} (h : ReadsBack item items)
    (rest : List Char) :
    Gives (readItems item) (List.intercalate [','] (items.map compact) ++ ']' :: rest) items
      rest := by
  have hwalk : Walk (itemStep item) [] (List.intercalate [','] (items.map compact) ++ ']' :: rest)
      items.reverse (']' :: rest) := by
    cases items with
    | nil => exact .stop ((gives_hasItem_close _ rest).bind (gives_pure none _))
    | cons value items =>
      obtain ⟨⟨hs, hv⟩, hr⟩ := List.forall_mem_cons.mp h
      have hstep : Gives (itemStep item [])
          (compact value ++ entriesText (items.map compact) ']' rest) (some [value])
          (entriesText (items.map compact) ']' rest) :=
        (gives_hasItem_first (hs.append _)).bind
          ((hv _ (closed_entriesText _ (by decide) rest)).bind (gives_pure _ _))
      rw [List.map_cons, intercalate_append, List.reverse_cons]
      refine .go hstep ?_ (walk_itemStep hr (by simp) rest)
      obtain ⟨c, more, hc, -⟩ := hs
      simp only [hc, List.length_cons, List.length_append]
      omega
  refine hwalk.iterate.bind ((gives_leaveList rest).bind ?_)
  rw [List.reverse_reverse]
  exact gives_pure items rest

-- ---------------------------------------------------------------------------
-- Objects
-- ---------------------------------------------------------------------------

theorem gives_hasMember_close (first : Bool) (rest : List Char) :
    Gives (hasMember first) ('\x7d' :: rest) false ('\x7d' :: rest) :=
  (gives_peekToken (by rintro c ⟨⟩; rfl)).bind (gives_pure false _)

theorem gives_hasMember_first (text : List Char) :
    Gives (hasMember true) ('"' :: text) true ('"' :: text) :=
  (gives_peekToken (by rintro c ⟨⟩; rfl)).bind (gives_pure true _)

theorem gives_hasMember_next (text : List Char) :
    Gives (hasMember false) (',' :: '"' :: text) true ('"' :: text) :=
  (gives_peekToken (by rintro c ⟨⟩; rfl)).bind ((gives_advance _ _).bind
    ((gives_peekToken (by rintro c ⟨⟩; rfl)).bind (gives_pure true _)))

theorem gives_readKey (key : String) (rest : List Char) :
    Gives readKey (stringText key ++ rest) key rest := by
  have hkey := gives_readString key rest
  simp only [stringText, List.cons_append, List.append_assoc, List.nil_append]
  exact (gives_advance _ _).bind hkey

theorem gives_readColon (rest : List Char) : Gives readColon (':' :: rest) () rest :=
  (gives_peekToken (by rintro c ⟨⟩; rfl)).bind (gives_advance _ rest)

def memberText (m : String × Json) : List Char :=
  stringText m.1 ++ ':' :: compact m.2

/-- Reads another member, of which the rest behind the key is read by `entry`. -/
def memberStep {σ : Type} (entry : σ → String → Reading σ) :
    Bool × σ → Reading (Option (Bool × σ)) := fun (first, state) => do
  if ← hasMember first then return some (false, ← entry state (← readKey)) else return none

/-- What is gathered from the texts of the members, one by one. -/
inductive Gathers {σ : Type} (entry : σ → String → Reading σ) : σ → Members → σ → Prop
  | nil (state : σ) : Gathers entry state [] state
  | cons {state next last : σ} {m : String × Json} {members : Members}
    (h : ∀ rest, Closed rest → Gives (entry state m.1) (':' :: compact m.2 ++ rest) next rest)
    (hr : Gathers entry next members last) : Gathers entry state (m :: members) last

variable {σ : Type} {entry : σ → String → Reading σ}

theorem gives_memberStep {first : Bool} {state next : σ} {m : String × Json} {rest : List Char}
    (h : Gives (entry state m.1) (':' :: compact m.2 ++ rest) next rest) :
    Gives (memberStep entry (first, state)) ((if first then [] else [',']) ++ memberText m ++ rest)
      (some (false, next)) rest := by
  have hmember : Gives (do return some (false, ← entry state (← readKey))) (memberText m ++ rest)
      (some (false, next)) rest := by
    rw [memberText, List.append_assoc]
    exact (gives_readKey m.1 _).bind (h.bind (gives_pure _ rest))
  cases first with
  | true => exact (gives_hasMember_first _).bind hmember
  | false => exact (gives_hasMember_next _).bind hmember

theorem Gathers.walk_false {state last : σ} {members : Members}
    (h : Gathers entry state members last) (rest : List Char) :
    Walk (memberStep entry) (false, state) (entriesText (members.map memberText) '\x7d' rest)
      (false, last) ('\x7d' :: rest) := by
  induction h with
  | nil => exact .stop ((gives_hasMember_close _ rest).bind (gives_pure none _))
  | cons h _ ih =>
    rw [List.map_cons, entriesText_cons]
    refine .go (gives_memberStep (h _ (closed_entriesText _ (by decide) rest))) ?_ ih
    simp only [List.length_cons, List.length_append]
    omega

theorem Gathers.iterate {state last : σ} {members : Members}
    (h : Gathers entry state members last) (rest : List Char) :
    Gives (iterate (memberStep entry) (true, state))
      (List.intercalate [','] (members.map memberText) ++ '\x7d' :: rest) (members.isEmpty, last)
      ('\x7d' :: rest) := by
  refine Walk.iterate ?_
  cases h with
  | nil => exact .stop ((gives_hasMember_close _ rest).bind (gives_pure none _))
  | cons h hr =>
    rw [List.map_cons, intercalate_append]
    refine .go (gives_memberStep (h _ (closed_entriesText _ (by decide) rest))) ?_
      (hr.walk_false rest)
    simp only [memberText, stringText, List.length_cons, List.length_append]
    omega

/-- The rest of a member of data: its value is set. -/
def setMember (value : Reading Json) (members : Members) (key : String) : Reading Members := do
  readColon
  return members.insert key (← value)

theorem readMembers_eq (value : Reading Json) :
    readMembers value = do
      let (_, members) ← iterate (memberStep (setMember value)) (true, [])
      advance
      return members := by
  have hstep : (fun (first, members) => do
      if ← hasMember first then
        let key ← readKey
        readColon
        return some (false, Members.insert members key (← value))
      else return none : Bool × Members → Reading (Option (Bool × Members))) =
        memberStep (setMember value) := by
    funext ⟨first, members⟩
    simp only [memberStep, setMember, bind_assoc, pure_bind]
  rw [readMembers, hstep]

theorem gathers_setMember {value : Reading Json} {before members : Members}
    (hs : (before ++ members).Sorted) (h : ReadsBack value (members.map Prod.snd)) :
    Gathers (setMember value) before members (before ++ members) := by
  induction members generalizing before with
  | nil =>
    rw [List.append_nil]
    exact .nil before
  | cons m members ih =>
    obtain ⟨⟨-, hv⟩, hr⟩ := List.forall_mem_cons.mp h
    have hbefore : ∀ earlier ∈ before, earlier.1 < m.1 := fun earlier he =>
      (List.pairwise_append.mp hs).2.2 earlier he m List.mem_cons_self
    have hall : before ++ m :: members = (before ++ [m]) ++ members := by simp
    rw [hall] at hs ⊢
    refine .cons (fun rest hc => ?_) (ih hs hr)
    have hset := Members.insert_eq_append hbefore m.2
    rw [← hset]
    exact (gives_readColon _).bind ((hv rest hc).bind (gives_pure _ rest))

theorem gives_readMembers {value : Reading Json} {members : Members} (hs : members.Sorted)
    (h : ReadsBack value (members.map Prod.snd)) (rest : List Char) :
    Gives (readMembers value) (List.intercalate [','] (members.map memberText) ++ '\x7d' :: rest)
      members rest := by
  rw [readMembers_eq]
  have hgathers : Gathers (setMember value) [] members members := gathers_setMember hs h
  exact (hgathers.iterate rest).bind ((gives_advance _ rest).bind (gives_pure members rest))

-- ---------------------------------------------------------------------------
-- Values
-- ---------------------------------------------------------------------------

theorem gives_readValue_number {n : Int} (hn : (Number.int n).InRange) {rest : List Char}
    (h : Closed rest) (allowance : Nat) :
    Gives (readValue allowance) (Number.intText n ++ rest) (.number (.int n)) rest := by
  have hnumber : Gives (do return .number (← readNumber)) (Number.intText n ++ rest)
      (Json.number (.int n)) rest :=
    (gives_readNumber hn h.endsNumber).bind (gives_pure _ rest)
  have hpeek := gives_peekToken ((startsValue_intText n).append rest).unblanked
  obtain ⟨c, more, hc, hd⟩ := intText_eq_cons n
  rw [hc] at hnumber hpeek ⊢
  unfold readValue
  refine hpeek.bind ?_
  rcases hd with rfl | hd
  · exact hnumber
  · split
    case h_8 heq =>
      cases heq
      rw [if_pos (by simp [hd])]
      exact hnumber
    -- a digit is none of the characters that other values start with
    all_goals
      next heq => cases heq <;> cases hd

theorem WellFormed.gives_readValue {value : Json} (h : value.WellFormed) {allowance : Nat}
    (hw : value.Whole) (hn : value.nesting ≤ allowance) {rest : List Char} (hr : Closed rest) :
    Gives (readValue allowance) (compact value ++ rest) value rest := by
  induction h generalizing allowance rest with
  | null =>
    unfold readValue
    refine (gives_peekToken (by rintro c ⟨⟩; rfl)).bind ((gives_advance _ _).bind ?_)
    exact (gives_readWord _ rest).bind (gives_pure _ rest)
  | bool b =>
    unfold readValue
    cases b with
    | true =>
      refine (gives_peekToken (by rintro c ⟨⟩; rfl)).bind ((gives_advance _ _).bind ?_)
      exact (gives_readWord _ rest).bind (gives_pure _ rest)
    | false =>
      refine (gives_peekToken (by rintro c ⟨⟩; rfl)).bind ((gives_advance _ _).bind ?_)
      exact (gives_readWord _ rest).bind (gives_pure _ rest)
  | number h =>
    cases hw with
    | int n => exact gives_readValue_number h hr allowance
  | string s =>
    have hs := gives_readString s rest
    simp only [compact, stringText, List.cons_append, List.append_assoc, List.nil_append]
    unfold readValue
    refine (gives_peekToken (by rintro c ⟨⟩; rfl)).bind ((gives_advance _ _).bind ?_)
    exact hs.bind (gives_pure _ rest)
  | @array items h ih =>
    cases hw with
    | array hw =>
      cases allowance with
      | zero => cases hn
      | succ allowance =>
        have hnest := nestingOfItems_le.mp (Nat.le_of_succ_le_succ hn)
        have hback : ReadsBack (readValue allowance) items := fun v hv =>
          ⟨(hw v hv).startsValue, fun _ hc => ih v hv (hw v hv) (hnest v hv) hc⟩
        simp only [compact, compactItems_eq_map, List.cons_append, List.append_assoc,
          List.nil_append]
        unfold readValue
        refine (gives_peekToken (by rintro c ⟨⟩; rfl)).bind ((gives_advance _ _).bind ?_)
        exact (gives_readItems hback rest).bind (gives_pure _ rest)
  | @object members hs h ih =>
    cases hw with
    | object hw =>
      cases allowance with
      | zero => cases hn
      | succ allowance =>
        have hnest := nestingOfMembers_le.mp (Nat.le_of_succ_le_succ hn)
        have hback : ReadsBack (readValue allowance) (members.map Prod.snd) := by
          intro v hv
          obtain ⟨m, hm, rfl⟩ := List.mem_map.mp hv
          exact ⟨(hw m hm).startsValue, fun _ hc => ih m hm (hw m hm) (hnest m hm) hc⟩
        simp only [compact, compactMembers_eq_map, List.cons_append, List.append_assoc,
          List.nil_append]
        unfold readValue
        refine (gives_peekToken (by rintro c ⟨⟩; rfl)).bind ((gives_advance _ _).bind ?_)
        exact (gives_readMembers hs hback rest).bind (gives_pure _ rest)

/-- What is written is read as it was. -/
theorem WellFormed.parse_toText {value : Json} (h : value.WellFormed) (hw : value.Whole)
    (hn : value.nesting ≤ maxNesting) : parse value.toText = .ok value := by
  have hread : Gives (readValue maxNesting) (compact value ++ []) value [] :=
    h.gives_readValue hw hn (by rintro c ⟨⟩)
  refine Gives.run ?_
  rw [toText, String.toList_ofList]
  rwa [List.append_nil] at hread

-- ---------------------------------------------------------------------------
-- Shapes
-- ---------------------------------------------------------------------------

theorem Gathers.append {state next last : σ} {members others : Members}
    (h : Gathers entry state members next) (ho : Gathers entry next others last) :
    Gathers entry state (members ++ others) last := by
  induction h with
  | nil => exact ho
  | cons h _ ih => exact .cons h (ih ho)

theorem Layout.gives_readMember_here {name : String} {required : Bool} {schema : Schema}
    {fields : Layout} {allowance : Nat} {others : fields.Partial} {value : Json}
    {read : schema.Value} {rest : List Char}
    (h : Gives (schema.read allowance) (compact value ++ rest) read rest) :
    Gives ((cons name required schema fields).readMember allowance (none, others) name)
      (':' :: compact value ++ rest) (some read, others) rest := by
  unfold readMember
  rw [if_pos rfl]
  exact (gives_readColon _).bind (h.bind (gives_pure _ rest))

theorem Layout.gives_readMember_there {name key : String} {required : Bool} {schema : Schema}
    {fields : Layout} {allowance : Nat} {found : Option schema.Value}
    {others next : fields.Partial} {text rest : List Char} (hk : key ≠ name)
    (h : Gives (fields.readMember allowance others key) text next rest) :
    Gives ((cons name required schema fields).readMember allowance (found, others) key) text
      (found, next) rest := by
  unfold readMember
  rw [if_neg hk]
  exact h.bind (gives_pure _ rest)

theorem Gathers.gives_record {name : String} {fields : Layout} {allowance : Nat}
    {members : Members} {met : fields.Partial} {values : fields.Values}
    (h : Gathers (fields.readMember allowance) fields.noneMet members met)
    (hc : fields.complete met = .ok values) (rest : List Char) :
    Gives ((Schema.record name fields).read (allowance + 1)) (compact (.object members) ++ rest)
      values rest := by
  have hfields := h.iterate rest
  simp only [compact, compactMembers_eq_map, List.cons_append, List.append_assoc,
    List.nil_append]
  unfold Schema.read
  refine (gives_peekToken (by rintro c ⟨⟩; rfl)).bind ((gives_advance _ _).bind ?_)
  refine hfields.bind ((gives_advance _ rest).bind ?_)
  show Gives (ofExcept (fields.complete met)) rest values rest
  rw [hc]
  exact gives_pure values rest

theorem gives_list_any {allowance : Nat} {items : List Json}
    (h : ReadsBack (readValue allowance) items) (rest : List Char) :
    Gives ((Schema.list .any).read (allowance + 1)) (compact (.array items) ++ rest) items
      rest := by
  have hitems := gives_readItems h rest
  simp only [compact, compactItems_eq_map, List.cons_append, List.append_assoc, List.nil_append]
  unfold Schema.read
  exact (gives_peekToken (by rintro c ⟨⟩; rfl)).bind ((gives_advance _ _).bind hitems)

theorem Schema.parse_toText {schema : Schema} {value : Json} {read : schema.Value}
    (h : Gives (schema.read maxNesting) (compact value ++ []) read []) :
    schema.parse value.toText = .ok read := by
  refine Gives.run ?_
  rw [toText, String.toList_ofList]
  rwa [List.append_nil] at h

end Folio.Json
