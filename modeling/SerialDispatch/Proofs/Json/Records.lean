import SerialDispatch.Proofs.Json.Checking

/-!
# Reading the spellings of a record

Members of an object go into their slots one after the other, up to the first problem
(`slots_object`); so an object gives all values whatever the order of its members, and a member that
comes twice is reported. The elements of an array fill the slots in order; an element that cannot
stand in its place is reported, and else the end that comes too early or too late. Main statement:
`Record.answers`.
-/
namespace SerialDispatch
open Reader Texts Spelling

section Standing

variable {β : Type} {name : β → String} {Holds : List Char → β → Prop} {Foreign : String → Prop}

/-- What the text of a member is: a known one, with a text of its value, or one of another name,
which is passed over. -/
def Standing (name : β → String) (Holds : List Char → β → Prop) (Foreign : String → Prop)
    (text : List Char) : Option β → Prop
  | some b => ∃ value, Holds value b ∧ text ∈ member (name b) {value}
  | none => ∃ other value, Foreign other ∧ Yields skip value (.ok ()) ∧
      text ∈ member other {value}

theorem Standing.opens {t : List Char} {item : Option β}
    (standing : Standing name Holds Foreign t item) : ∃ more, t = '"' :: more := by
  cases item with
  | none =>
    obtain ⟨_, _, -, -, there⟩ := standing
    exact opens_member there
  | some b =>
    obtain ⟨_, -, there⟩ := standing
    exact opens_member there

/-- Texts of members stand for what their values are; `P` is what is known of those. -/
theorem exists_standing {P : β → Prop} {names : List String} {fields : List (Option Field)}
    {ts : List (List Char)} (foreign : ∀ other ∉ names, Foreign other)
    (known : ∀ f ∈ fields.reduceOption, ∀ u ∈ f.value.right,
      ∃ b, f.name = name b ∧ Holds u b ∧ P b)
    (each : List.Forall₂ (· ∈ ·) ts (fields.map (memberOf names))) :
    ∃ items, List.Forall₂ (Standing name Holds Foreign) ts items ∧
      items.reduceOption.map name = fields.reduceOption.map Field.name ∧
      ∀ b ∈ items.reduceOption, P b := by
  obtain ⟨items, stand, fits⟩ : ∃ items, List.Forall₂ (Standing name Holds Foreign) ts items ∧
      List.Forall₂ (fun b f => P b ∧ name b = f.name) items.reduceOption fields.reduceOption := by
    refine exists_items ?_ ?_ each
    · rintro t ⟨other, unlisted, here⟩
      obtain ⟨gap, gap', value, blank, blank', scalar, rfl⟩ := mem_member.1 here
      exact ⟨other, value, foreign other unlisted, yields_skip scalar,
        mem_member.2 ⟨gap, gap', value, blank, blank', rfl, rfl⟩⟩
    · intro f given t here
      obtain ⟨gap, gap', value, blank, blank', within, rfl⟩ := mem_member.1 here
      obtain ⟨b, same, holds, fits⟩ := known f given value within
      rw [same]
      exact ⟨b, ⟨value, holds, mem_member.2 ⟨gap, gap', value, blank, blank', rfl, rfl⟩⟩, fits, rfl⟩
  obtain ⟨holds, same⟩ := (List.forall₂_and_left _ _).1 fits
  refine ⟨items, stand, ?_, holds⟩
  rw [← List.forall₂_eq_eq_eq, List.forall₂_map_left_iff, List.forall₂_map_right_iff]
  exact same

end Standing

namespace Record

variable {ι : Type}

/-- A member that stands in a text, with what comes of reading its value. -/
structure Reading (R : Record ι) where
  index : ι
  outcome : Except DecodeError (R.Value index)

variable [DecidableEq ι] {R : Record ι}

/-- A value goes into its slot if the slot is free. -/
def Reading.take (slots : R.Slots) (r : R.Reading) : Except DecodeError R.Slots :=
  if (slots r.index).isSome then .error .duplicateField else r.outcome.map (R.put slots r.index)

/-- Members go into their slots one after the other. -/
def takeAll (slots : R.Slots) (rs : List R.Reading) : Except DecodeError R.Slots :=
  rs.foldlM Reading.take slots

/-- These values in their slots, instead of what was there. -/
def putAll (values : (i : ι) → R.Value i) (slots : R.Slots) (is : List ι) : R.Slots :=
  is.foldl (fun slots i => R.put slots i (values i)) slots

section Slots

variable {slots : R.Slots} {rs : List R.Reading} {e : DecodeError}

theorem takeAll_cons (r : R.Reading) (rs : List R.Reading) (slots : R.Slots) :
    takeAll slots (r :: rs) = r.take slots >>= fun slots => takeAll slots rs := List.foldlM_cons

theorem take_free {r : R.Reading} {v : R.Value r.index} (free : slots r.index = Option.none)
    (read : r.outcome = .ok v) : r.take slots = .ok (R.put slots r.index v) := by
  simp only [Reading.take, free, read]
  rfl

theorem putAll_apply (values : (i : ι) → R.Value i) (slots : R.Slots) (is : List ι) (i : ι) :
    putAll values slots is i = if i ∈ is then some (values i) else slots i := by
  induction is generalizing slots with
  | nil => rfl
  | cons j is ih =>
    rw [putAll, List.foldl_cons, ← putAll, ih]
    by_cases later : i ∈ is
    · rw [if_pos later, if_pos (List.mem_cons_of_mem j later)]
    · rw [if_neg later]
      by_cases same : j = i
      · subst same
        rw [if_pos List.mem_cons_self, put_self]
      · rw [R.put_of_ne slots _ same, if_neg (by simp [later, Ne.symm same])]

/-- Different members that are read go into their slots. -/
theorem takeAll_right {values : (i : ι) → R.Value i}
    (read : ∀ r ∈ rs, r.outcome = .ok (values r.index)) (apart : (rs.map Reading.index).Nodup)
    (free : ∀ r ∈ rs, slots r.index = Option.none) :
    takeAll slots rs = .ok (putAll values slots (rs.map Reading.index)) := by
  induction rs generalizing slots with
  | nil => rfl
  | cons r rs ih =>
    rw [List.map_cons, List.nodup_cons] at apart
    have others : ∀ s ∈ rs, R.put slots r.index (values r.index) s.index = Option.none := by
      intro s there
      have other : r.index ≠ s.index := fun same => apart.1 (same ▸ List.mem_map_of_mem there)
      rw [R.put_of_ne slots _ other]
      exact free s (List.mem_cons_of_mem _ there)
    rw [takeAll_cons, take_free (free r List.mem_cons_self) (read r List.mem_cons_self)]
    exact ih (fun s there => read s (List.mem_cons_of_mem _ there)) apart.2 others

/-- A member whose slot is taken is reported, in the end. -/
theorem takeAll_repeated (read : ∀ r ∈ rs, ∃ v, r.outcome = .ok v)
    (twice : ¬ (rs.map Reading.index).Nodup ∨ ∃ r ∈ rs, (slots r.index).isSome = true) :
    takeAll slots rs = .error .duplicateField := by
  induction rs generalizing slots with
  | nil => simp at twice
  | cons r rs ih =>
    rw [takeAll_cons]
    by_cases taken : (slots r.index).isSome = true
    · rw [Reading.take, if_pos taken]
      rfl
    · obtain ⟨v, found⟩ := read r List.mem_cons_self
      rw [take_free (Option.not_isSome_iff_eq_none.1 taken) found]
      refine ih (fun s there => read s (List.mem_cons_of_mem _ there)) ?_
      rcases twice with twice | ⟨s, there, full⟩
      · rw [List.map_cons, List.nodup_cons, not_and_or, not_not] at twice
        refine twice.symm.imp_right fun there => ?_
        obtain ⟨s, there, same⟩ := List.mem_map.1 there
        exact ⟨s, there, by rw [same, put_self]; rfl⟩
      · have other : r.index ≠ s.index := fun same => taken (same ▸ full)
        have there : s ∈ rs := (List.mem_cons.1 there).resolve_left fun same => other (same ▸ rfl)
        exact .inr ⟨s, there, by rwa [R.put_of_ne slots v other]⟩

/-- If values of different members have the same problem, it is reported. -/
theorem takeAll_wrong (read : ∀ r ∈ rs, r.outcome = .error e ∨ ∃ v, r.outcome = .ok v)
    (some : ∃ r ∈ rs, r.outcome = .error e) (apart : (rs.map Reading.index).Nodup)
    (free : ∀ r ∈ rs, slots r.index = Option.none) : takeAll slots rs = .error e := by
  induction rs generalizing slots with
  | nil => simp at some
  | cons r rs ih =>
    rw [takeAll_cons]
    rcases read r List.mem_cons_self with wrong | ⟨v, found⟩
    · simp only [Reading.take, free r List.mem_cons_self, wrong]
      rfl
    · rw [List.map_cons, List.nodup_cons] at apart
      rw [take_free (free r List.mem_cons_self) found]
      refine ih (fun s there => read s (List.mem_cons_of_mem _ there)) ?_ apart.2 fun s there => ?_
      · obtain ⟨s, there, wrong⟩ := some
        refine ⟨s, (List.mem_cons.1 there).resolve_left fun same => ?_, wrong⟩
        rw [same, found] at wrong
        cases wrong
      · have other : r.index ≠ s.index := fun same => apart.1 (same ▸ List.mem_map_of_mem there)
        rw [R.put_of_ne slots v other]
        exact free s (List.mem_cons_of_mem _ there)

end Slots

section Objects

/-- What the text of a member is to the record: one of its members, or another one. -/
def Stands (R : Record ι) : List Char → Option R.Reading → Prop :=
  Standing (R.name ·.index) (fun value r => Yields (R.read r.index) value r.outcome)
    (R.member? · = Option.none)

variable {t text : List Char} {ts : List (List Char)} {item : Option R.Reading}
variable {items : List (Option R.Reading)}

theorem member_stands (named : R.Named) (stands : Stands R t item) {before : List Char}
    (blank : AllBlank before) {rest : List Char} (ends : Ends rest) (slots : R.Slots) :
    (do let (name, rest) ← string (before ++ (t ++ rest))
        R.member slots name rest) =
      (takeAll slots item.toList).map fun slots => (slots, rest) := by
  cases item with
  | none =>
    obtain ⟨name, value, unknown, passes, there⟩ := stands
    obtain ⟨gap, gap', _, blank', blank'', rfl, rfl⟩ := mem_member.1 there
    rw [trims_string.blanks blank, List.append_assoc, string_quoted]
    simp only [bind, Except.bind, member, unknown, List.append_assoc, List.cons_append,
      punctuation_blanks blank' (show isBlank ':' = false by decide),
      passes.gives gap' rest blank'' ends]
    rfl
  | some r =>
    obtain ⟨value, yields, there⟩ := stands
    obtain ⟨gap, gap', _, blank', blank'', rfl, rfl⟩ := mem_member.1 there
    rw [trims_string.blanks blank, List.append_assoc, string_quoted]
    simp only [bind, Except.bind, member, named r.index, List.append_assoc, List.cons_append,
      punctuation_blanks blank' (show isBlank ':' = false by decide),
      yields.gives gap' rest blank'' ends]
    rw [Option.toList, takeAll_cons, Reading.take]
    by_cases taken : (slots r.index).isSome = true
    · rw [if_pos taken, if_pos taken]
      rfl
    · rw [if_neg taken, if_neg taken]
      cases r.outcome <;> rfl

theorem takeAll_items (slots : R.Slots) (item : Option R.Reading)
    (items : List (Option R.Reading)) :
    takeAll slots (item :: items).reduceOption =
      takeAll slots item.toList >>= fun slots => takeAll slots items.reduceOption := by
  have whole : (item :: items).reduceOption = item.toList ++ items.reduceOption := by
    cases item <;> rfl
  rw [whole]
  exact List.foldlM_append

theorem membersFrom_succ (n : Nat) (slots : R.Slots) (cs : List Char) :
    R.membersFrom (n + 1) slots cs =
      (do let (name, rest) ← string cs
          R.member slots name rest) >>= fun found =>
        match trim found.2 with
        | '\x7d' :: rest => .ok (found.1, rest)
        | ',' :: rest => R.membersFrom n found.1 rest
        | _ => .error .malformed := by
  rw [membersFrom]
  cases string cs <;> rfl

/-- Members are read one after the other, up to the closing brace or the first problem. -/
theorem membersFrom_behind (named : R.Named) (stands : Stands R t item)
    (others : List.Forall₂ (Stands R) ts items) {n : Nat} (enough : ts.length < n)
    (there : text ∈ behind '\x7d' (fixed ts)) {before : List Char} (blank : AllBlank before)
    (rest : List Char) (slots : R.Slots) :
    R.membersFrom n slots (before ++ (t ++ (text ++ rest))) =
      (takeAll slots (item :: items).reduceOption).map fun slots => (slots, rest) := by
  induction others generalizing t item n text before slots with
  | nil =>
    obtain ⟨n, rfl⟩ : ∃ m, n = m + 1 := ⟨n - 1, by omega⟩
    have first := member_stands named stands blank (ends_behind (.inr rfl) there rest) slots
    rw [membersFrom_succ, first, takeAll_items]
    obtain ⟨gap, blank', rfl⟩ := mem_behind_nil.1 there
    cases takeAll slots item.toList with
    | error e => rfl
    | ok slots =>
      simp only [Except.map, bind, Except.bind, List.append_assoc, List.cons_append,
        trim_blanks_cons blank' (show isBlank '\x7d' = false by decide)]
      rfl
  | cons second _ ih =>
    obtain ⟨n, rfl⟩ : ∃ m, n = m + 1 := ⟨n - 1, by omega⟩
    have first := member_stands named stands blank (ends_behind (.inr rfl) there rest) slots
    rw [membersFrom_succ, first, takeAll_items]
    obtain ⟨gap, gap', more, blank', blank'', still, rfl⟩ := mem_behind_fixed there
    cases takeAll slots item.toList with
    | error e => rfl
    | ok slots =>
      simp only [Except.map, bind, Except.bind, List.append_assoc, List.cons_append,
        trim_blanks_cons blank' (show isBlank ',' = false by decide)]
      exact ih second (by simp at enough; omega) still blank'' slots

/-- The members of an object go into their slots in the order in which they stand there. -/
theorem slots_object (named : R.Named) (each : List.Forall₂ (Stands R) ts items)
    (there : text ∈ object (fixed ts)) {blanks : List Char} (blank : AllBlank blanks)
    (rest : List Char) : R.slots (blanks ++ (text ++ rest)) =
      (takeAll R.none items.reduceOption).map fun slots => (slots, rest) := by
  cases each with
  | nil =>
    obtain ⟨before, blank', rfl⟩ := mem_enclosed_nil.1 there
    rw [Record.slots, List.cons_append, trim_blanks_cons blank (by decide)]
    show R.members (before ++ ['\x7d'] ++ rest) = _
    rw [members, List.append_assoc, List.singleton_append, trim_blanks_cons blank' (by decide)]
    rfl
  | cons first others =>
    obtain ⟨before, t, more, blank', rfl, still, rfl⟩ := mem_enclosed_cons.1 there
    have enough := length_behind still
    obtain ⟨tail, start⟩ := Standing.opens first
    rw [Record.slots, List.cons_append, trim_blanks_cons blank (by decide), List.append_assoc,
      List.append_assoc]
    show R.members _ = _
    have opening : trim (before ++ (t ++ (more ++ rest))) = '"' :: (tail ++ (more ++ rest)) := by
      rw [start]
      exact trim_blanks_cons blank' (by decide) _
    rw [members, opening]
    exact membersFrom_behind named first others (by simp only [List.length_append]; omega) still
      blank' rest R.none

theorem yields_object (named : R.Named) (each : List.Forall₂ (Stands R) ts items)
    (there : text ∈ object (fixed ts)) {α : Type} (build : R.Slots → Except DecodeError α) :
    Yields (R.reader build) text (takeAll R.none items.reduceOption >>= build) := by
  obtain ⟨-, -, begins⟩ := begins_enclosed (by decide) (by decide) there
  refine ⟨begins, fun blanks rest blank _ => ?_⟩
  rw [reader, slots_object named each there blank rest]
  cases takeAll R.none items.reduceOption with
  | error e => rfl
  | ok slots =>
    show (do return (← build slots, rest)) = (build slots).map fun a => (a, rest)
    cases build slots <;> rfl

end Objects

section Arrays

/-- These texts come next in an array, the first one behind blanks. -/
def Facing (rest : List Char) (ts : List (List Char)) (cs : List Char) : Prop :=
  ∃ before t others text, ts = t :: others ∧ AllBlank before ∧ text ∈ behind ']' (fixed others) ∧
    cs = before ++ (t ++ (text ++ rest))

variable {t u text rest cs : List Char} {ts : List (List Char)} {i j : ι} {slots : R.Slots}

theorem Facing.gives {α : Type} {read : Reader α} {outcome : Except DecodeError α}
    (facing : Facing rest (t :: ts) cs) (yields : Yields read t outcome) :
    ∃ text ∈ behind ']' (fixed ts), read cs = outcome.map fun a => (a, text ++ rest) := by
  obtain ⟨before, _, _, text, same, blank, there, rfl⟩ := facing
  obtain ⟨rfl, rfl⟩ := List.cons.inj same
  exact ⟨text, there, yields.gives _ _ blank (ends_behind (.inl rfl) there rest)⟩

theorem elements_last (facing : Facing rest [t] cs) {outcome : Except DecodeError (R.Value i)}
    (yields : Yields (R.read i) t outcome) :
    R.elements [i] slots cs = (outcome.map (R.put slots i)).map fun slots => (slots, rest) := by
  obtain ⟨text, there, gives⟩ := facing.gives yields
  obtain ⟨gap, blank, rfl⟩ := mem_behind_nil.1 there
  rw [elements, gives]
  cases outcome with
  | error e => rfl
  | ok v =>
    simp only [Except.map, bind, Except.bind, List.append_assoc, List.cons_append,
      punctuation_blanks blank (show isBlank ']' = false by decide)]
    rfl

/-- An element that cannot stand in its place. -/
theorem elements_stuck (facing : Facing rest (t :: ts) cs) {e : DecodeError}
    (yields : Yields (R.read i) t (.error e)) (is : List ι) :
    R.elements (i :: is) slots cs = .error e := by
  obtain ⟨text, -, gives⟩ := facing.gives yields
  cases is with
  | nil =>
    rw [elements, gives]
    rfl
  | cons j is =>
    rw [elements, gives]
    · rfl
    · nofun

theorem elements_cons (is : List ι) (cs : List Char) : R.elements (i :: j :: is) slots cs =
    R.read i cs >>= fun found => punctuation ',' found.2 >>=
      R.elements (j :: is) (R.put slots i found.1) := by
  rw [elements]
  nofun

/-- The array ends where another element is wanted. -/
theorem elements_short (facing : Facing rest [t] cs) {v : R.Value i}
    (yields : Yields (R.read i) t (.ok v)) (is : List ι) :
    R.elements (i :: j :: is) slots cs = .error .malformed := by
  obtain ⟨text, there, gives⟩ := facing.gives yields
  obtain ⟨gap, blank, rfl⟩ := mem_behind_nil.1 there
  rw [elements_cons, gives, List.append_assoc]
  show punctuation ',' (gap ++ ([']'] ++ rest)) >>= _ = _
  rw [List.singleton_append, punctuation_blanks_of_ne blank (by decide) (by decide)]
  rfl

/-- Another element stands where the array has to end. -/
theorem elements_long (facing : Facing rest (t :: u :: ts) cs) {v : R.Value i}
    (yields : Yields (R.read i) t (.ok v)) : R.elements [i] slots cs = .error .malformed := by
  obtain ⟨text, there, gives⟩ := facing.gives yields
  obtain ⟨gap, gap', others, blank, -, -, rfl⟩ := mem_behind_fixed there
  rw [elements, gives]
  simp only [Except.map, bind, Except.bind, List.append_assoc, List.cons_append,
    punctuation_blanks_of_ne blank (show isBlank ',' = false by decide) (show ',' ≠ ']' by decide)]

theorem elements_step (facing : Facing rest (t :: u :: ts) cs) {v : R.Value i}
    (yields : Yields (R.read i) t (.ok v)) : ∃ cs', Facing rest (u :: ts) cs' ∧ ∀ j is slots,
      R.elements (i :: j :: is) slots cs = R.elements (j :: is) (R.put slots i v) cs' := by
  obtain ⟨text, there, gives⟩ := facing.gives yields
  obtain ⟨gap, gap', others, blank, blank', still, rfl⟩ := mem_behind_fixed there
  refine ⟨gap' ++ (u ++ (others ++ rest)), ⟨gap', u, ts, others, rfl, blank', still, rfl⟩,
    fun j is slots => ?_⟩
  rw [elements_cons, gives]
  simp only [Except.map, bind, Except.bind, List.append_assoc, List.cons_append,
    punctuation_blanks blank (show isBlank ',' = false by decide)]

/-- Elements that can stand in their places fill the slots. -/
theorem elements_run {values : (i : ι) → R.Value i} {first : List (List Char)} {is : List ι}
    (each : List.Forall₂ (fun t i => Yields (R.read i) t (.ok (values i))) first is)
    (facing : Facing rest (first ++ t :: ts) cs) : ∃ cs', Facing rest (t :: ts) cs' ∧
      ∀ j js slots, R.elements (is ++ j :: js) slots cs =
        R.elements (j :: js) (putAll values slots is) cs' := by
  induction each generalizing cs with
  | nil => exact ⟨cs, facing, fun _ _ _ => rfl⟩
  | @cons u i first is yields _ ih =>
    obtain ⟨next, others, same⟩ : ∃ next others, first ++ t :: ts = next :: others := by
      cases first <;> exact ⟨_, _, rfl⟩
    rw [List.cons_append, same] at facing
    obtain ⟨between, facing, step⟩ := elements_step facing yields
    rw [← same] at facing
    obtain ⟨cs', facing, run⟩ := ih facing
    refine ⟨cs', facing, fun j js slots => ?_⟩
    obtain ⟨k, ks, tail⟩ : ∃ k ks, is ++ j :: js = k :: ks := by
      cases is <;> exact ⟨_, _, rfl⟩
    rw [List.cons_append, tail, step, ← tail, run]
    rfl

/-- The elements of an array go into the slots in their order. -/
theorem yields_array (there : text ∈ array (fixed ts)) (some : ts ≠ [])
    {found : Except DecodeError R.Slots}
    (gives : ∀ rest cs, Facing rest ts cs →
      R.elements R.order R.none cs = found.map fun slots => (slots, rest))
    {α : Type} (build : R.Slots → Except DecodeError α) :
    Yields (R.reader build) text (found >>= build) := by
  obtain ⟨-, -, begins⟩ := begins_enclosed (by decide) (by decide) there
  refine ⟨begins, fun blanks rest blank _ => ?_⟩
  obtain ⟨t, ts, rfl⟩ := List.exists_cons_of_ne_nil some
  obtain ⟨before, _, others, blank', rfl, still, rfl⟩ := mem_enclosed_cons.1 there
  have inner := gives rest _ ⟨before, _, ts, others, rfl, blank', still, rfl⟩
  rw [reader, Record.slots, List.cons_append, trim_blanks_cons blank (by decide),
    List.append_assoc, List.append_assoc]
  show R.elements R.order R.none _ >>= _ = _
  rw [inner]
  cases found with
  | error e => rfl
  | ok slots =>
    show (do return (← build slots, rest)) = (build slots).map fun a => (a, rest)
    cases build slots <;> rfl

end Arrays
end Record
end SerialDispatch
