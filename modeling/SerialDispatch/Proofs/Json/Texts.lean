import Mathlib.Computability.Language
import SerialDispatch.Proofs.Json.Surroundings

/-!
# Items between brackets

Texts of arrays and objects, given the texts of what stands in them, with any blanks between the
tokens. A list of items is read from such a text where each item is: `itemsFrom_behind`,
`yields_list`.
-/
namespace SerialDispatch.Texts
open Reader

/-- Blanks, or nothing. -/
def blanks : Language Char := {text | AllBlank text}

/-- A member of an object: its name and one of these values. -/
def member (name : String) (value : Language Char) : Language Char :=
  {Json.quoted name.toList} * blanks * {[':']} * blanks * value

/-- What stands behind an item: the others, each behind a comma, and the closing bracket. -/
def behind (close : Char) : List (Language Char) → Language Char
  | [] => blanks * {[close]}
  | item :: rest => blanks * {[',']} * blanks * item * behind close rest

/-- Items between brackets, with commas between them. -/
def enclosed (opening close : Char) : List (Language Char) → Language Char
  | [] => {[opening]} * blanks * {[close]}
  | item :: rest => {[opening]} * blanks * item * behind close rest

def array (items : List (Language Char)) : Language Char := enclosed '[' ']' items

def object (members : List (Language Char)) : Language Char := enclosed '\x7b' '\x7d' members

variable {name : String} {value item : Language Char} {opening close : Char}
variable {items : List (Language Char)} {text : List Char}

section Parts

theorem mem_member : text ∈ member name value ↔ ∃ before after inner,
    AllBlank before ∧ AllBlank after ∧ inner ∈ value ∧
      text = Json.quoted name.toList ++ (before ++ ':' :: (after ++ inner)) := by
  simp only [member, Language.mem_mul]
  constructor
  · rintro ⟨_, ⟨_, ⟨_, ⟨_, rfl, before, blank, rfl⟩, _, rfl, rfl⟩, after, blank', rfl⟩, inner,
      there, rfl⟩
    exact ⟨before, after, inner, blank, blank', there, by simp⟩
  · rintro ⟨before, after, inner, blank, blank', there, rfl⟩
    exact ⟨_, ⟨_, ⟨_, ⟨_, rfl, before, blank, rfl⟩, _, rfl, rfl⟩, after, blank', rfl⟩, inner, there,
      by simp⟩

theorem opens_member (there : text ∈ member name value) : ∃ more, text = '"' :: more := by
  obtain ⟨_, _, _, _, _, _, rfl⟩ := mem_member.1 there
  exact ⟨_, rfl⟩

theorem mem_behind_nil : text ∈ behind close [] ↔ ∃ before, AllBlank before ∧
    text = before ++ [close] := by
  simp only [behind, Language.mem_mul]
  constructor
  · rintro ⟨before, blank, _, rfl, rfl⟩
    exact ⟨before, blank, rfl⟩
  · rintro ⟨before, blank, rfl⟩
    exact ⟨before, blank, _, rfl, rfl⟩

theorem mem_behind_cons : text ∈ behind close (item :: items) ↔ ∃ before after first others,
    AllBlank before ∧ AllBlank after ∧ first ∈ item ∧ others ∈ behind close items ∧
      text = before ++ ',' :: (after ++ (first ++ others)) := by
  simp only [behind, Language.mem_mul]
  constructor
  · rintro ⟨_, ⟨_, ⟨_, ⟨before, blank, _, rfl, rfl⟩, after, blank', rfl⟩, first, there, rfl⟩,
      others, there', rfl⟩
    exact ⟨before, after, first, others, blank, blank', there, there', by simp⟩
  · rintro ⟨before, after, first, others, blank, blank', there, there', rfl⟩
    exact ⟨_, ⟨_, ⟨_, ⟨before, blank, _, rfl, rfl⟩, after, blank', rfl⟩, first, there, rfl⟩, others,
      there', by simp⟩

theorem mem_enclosed_nil : text ∈ enclosed opening close [] ↔ ∃ before, AllBlank before ∧
    text = opening :: (before ++ [close]) := by
  simp only [enclosed, Language.mem_mul]
  constructor
  · rintro ⟨_, ⟨_, rfl, before, blank, rfl⟩, _, rfl, rfl⟩
    exact ⟨before, blank, rfl⟩
  · rintro ⟨before, blank, rfl⟩
    exact ⟨_, ⟨_, rfl, before, blank, rfl⟩, _, rfl, rfl⟩

theorem mem_enclosed_cons : text ∈ enclosed opening close (item :: items) ↔ ∃ before first others,
    AllBlank before ∧ first ∈ item ∧ others ∈ behind close items ∧
      text = opening :: (before ++ (first ++ others)) := by
  simp only [enclosed, Language.mem_mul]
  constructor
  · rintro ⟨_, ⟨_, ⟨_, rfl, before, blank, rfl⟩, first, there, rfl⟩, others, there', rfl⟩
    exact ⟨before, first, others, blank, there, there', by simp⟩
  · rintro ⟨before, first, others, blank, there, there', rfl⟩
    exact ⟨_, ⟨_, ⟨_, rfl, before, blank, rfl⟩, first, there, rfl⟩, others, there', by simp⟩

end Parts

/-- Each of these texts alone. -/
def fixed (texts : List (List Char)) : List (Language Char) := texts.map fun t => {t}

theorem mem_behind_fixed {t : List Char} {ts : List (List Char)}
    (there : text ∈ behind close (fixed (t :: ts))) : ∃ before after others, AllBlank before ∧
      AllBlank after ∧ others ∈ behind close (fixed ts) ∧
        text = before ++ ',' :: (after ++ (t ++ others)) := by
  obtain ⟨before, after, _, others, blank, blank', rfl, still, rfl⟩ := mem_behind_cons.1 there
  exact ⟨before, after, others, blank, blank', still, rfl⟩

/-- A text of some items holds a text of each of them. -/
theorem exists_behind (there : text ∈ behind close items) :
    ∃ ts, List.Forall₂ (· ∈ ·) ts items ∧ text ∈ behind close (fixed ts) := by
  induction items generalizing text with
  | nil => exact ⟨[], .nil, there⟩
  | cons item items ih =>
    obtain ⟨before, after, first, others, blank, blank', here, still, rfl⟩ :=
      mem_behind_cons.1 there
    obtain ⟨ts, each, still⟩ := ih still
    exact ⟨first :: ts, .cons here each,
      mem_behind_cons.2 ⟨before, after, first, others, blank, blank', rfl, still, rfl⟩⟩

theorem exists_enclosed (there : text ∈ enclosed opening close items) :
    ∃ ts, List.Forall₂ (· ∈ ·) ts items ∧ text ∈ enclosed opening close (fixed ts) := by
  cases items with
  | nil => exact ⟨[], .nil, there⟩
  | cons item items =>
    obtain ⟨before, first, others, blank, here, still, rfl⟩ := mem_enclosed_cons.1 there
    obtain ⟨ts, each, still⟩ := exists_behind still
    exact ⟨first :: ts, .cons here each,
      mem_enclosed_cons.2 ⟨before, first, others, blank, rfl, still, rfl⟩⟩

theorem forall_members {P : List Char → Prop} {ts : List (List Char)}
    (each : List.Forall₂ (· ∈ ·) ts items) (holds : ∀ item ∈ items, ∀ t ∈ item, P t) :
    ∀ t ∈ ts, P t := by
  induction each with
  | nil => nofun
  | cons here _ ih =>
    rw [List.forall_mem_cons] at holds
    exact List.forall_mem_cons.2 ⟨holds.1 _ here, ih holds.2⟩

/-- A text of some items, cut at one of them. -/
theorem exists_split {before after : List (Language Char)}
    (there : text ∈ enclosed opening close (before ++ item :: after)) : ∃ us t vs,
      List.Forall₂ (· ∈ ·) us before ∧ t ∈ item ∧ List.Forall₂ (· ∈ ·) vs after ∧
        text ∈ enclosed opening close (fixed (us ++ t :: vs)) := by
  obtain ⟨ts, each, there⟩ := exists_enclosed there
  have first := List.forall₂_take_append ts before (item :: after) each
  have later := List.forall₂_drop_append ts before (item :: after) each
  obtain ⟨t, vs, here, others, rest⟩ := List.forall₂_cons_right_iff.1 later
  refine ⟨_, t, vs, first, here, others, ?_⟩
  rwa [← rest, List.take_append_drop]

theorem begins_enclosed (shown : isBlank opening = false) (other : opening ≠ ']')
    (there : text ∈ enclosed opening close items) :
    ∃ inner, text = opening :: inner ∧ Begins text := by
  have begins : ∀ inner, Begins (opening :: inner) := fun inner => ⟨_, _, rfl, shown, other⟩
  cases items with
  | nil =>
    obtain ⟨before, -, rfl⟩ := mem_enclosed_nil.1 there
    exact ⟨_, rfl, begins _⟩
  | cons item items =>
    obtain ⟨before, first, others, -, -, -, rfl⟩ := mem_enclosed_cons.1 there
    exact ⟨_, rfl, begins _⟩

/-- Behind an item stands what may stand behind a value. -/
theorem ends_behind (closing : close = ']' ∨ close = '\x7d') (there : text ∈ behind close items)
    (rest : List Char) : Ends (text ++ rest) := by
  have ends : ∀ before c more, AllBlank before → c = ',' ∨ c = ']' ∨ c = '\x7d' →
      Ends (before ++ c :: more) := by
    intro before c more blank may d first
    cases before with
    | nil =>
      obtain rfl : c = d := Option.some.inj first
      exact .inr may
    | cons b before =>
      obtain rfl : b = d := Option.some.inj first
      exact .inl (blank _ List.mem_cons_self)
  cases items with
  | nil =>
    obtain ⟨before, blank, rfl⟩ := mem_behind_nil.1 there
    rw [List.append_assoc]
    exact ends before close _ blank (.inr closing)
  | cons item items =>
    obtain ⟨before, after, first, others, blank, -, -, -, rfl⟩ := mem_behind_cons.1 there
    rw [List.append_assoc, List.cons_append]
    exact ends before ',' _ blank (.inl rfl)

theorem length_behind {ts : List (List Char)} (there : text ∈ behind close (fixed ts)) :
    ts.length < text.length := by
  induction ts generalizing text with
  | nil =>
    obtain ⟨before, -, rfl⟩ := mem_behind_nil.1 there
    simp
  | cons t ts ih =>
    obtain ⟨before, after, others, -, -, still, rfl⟩ := mem_behind_fixed there
    have := ih still
    simp only [List.length_append, List.length_cons]
    omega

section Lists

variable {α : Type} {item : Reader α} {ts : List (List Char)}
variable {outcomes : List (Except DecodeError α)}

theorem collect_ok (a : α) (outcomes : List (Except DecodeError α)) :
    (.ok a :: outcomes).mapM id = (outcomes.mapM id).map (a :: ·) := by
  rw [List.mapM_cons]
  cases outcomes.mapM id <;> rfl

theorem collect_error (e : DecodeError) (outcomes : List (Except DecodeError α)) :
    (.error e :: outcomes).mapM id = .error e := by
  rw [List.mapM_cons]
  rfl

/-- Items are read one after the other, up to the closing bracket or the first problem. -/
theorem itemsFrom_behind {t : List Char} {outcome : Except DecodeError α}
    (yields : Yields item t outcome) (others : List.Forall₂ (Yields item) ts outcomes) {n : Nat}
    (enough : ts.length < n) (there : text ∈ behind ']' (fixed ts)) {before : List Char}
    (blank : AllBlank before) (rest : List Char) :
    itemsFrom item n (before ++ (t ++ (text ++ rest))) =
      ((outcome :: outcomes).mapM id).map fun as => (as, rest) := by
  induction others generalizing t outcome n text before with
  | nil =>
    obtain ⟨n, rfl⟩ : ∃ m, n = m + 1 := ⟨n - 1, by omega⟩
    rw [itemsFrom, yields.gives _ _ blank (ends_behind (.inl rfl) there rest)]
    obtain ⟨gap, blank', rfl⟩ := mem_behind_nil.1 there
    cases outcome with
    | error e => rfl
    | ok a =>
      simp only [Except.map, bind, Except.bind, List.append_assoc,
        trim_blanks_cons blank' (show isBlank ']' = false by decide), List.cons_append]
      rfl
  | @cons _ second _ later next _ ih =>
    obtain ⟨n, rfl⟩ : ∃ m, n = m + 1 := ⟨n - 1, by omega⟩
    rw [itemsFrom, yields.gives _ _ blank (ends_behind (.inl rfl) there rest)]
    obtain ⟨gap, gap', more, blank', blank'', still, rfl⟩ := mem_behind_fixed there
    cases outcome with
    | error e => rfl
    | ok a =>
      have rest' := ih next (by simp at enough; omega) still blank''
      simp only [Except.map, bind, Except.bind, List.append_assoc,
        trim_blanks_cons blank' (show isBlank ',' = false by decide), List.cons_append, rest',
        collect_ok]
      cases (second :: later).mapM id <;> rfl

/-- The items of an array, its opening bracket read. -/
theorem items_array (each : List.Forall₂ (Yields item) ts outcomes)
    (there : '[' :: text ∈ array (fixed ts)) (rest : List Char) :
    Reader.items item (text ++ rest) = (outcomes.mapM id).map fun as => (as, rest) := by
  cases each with
  | nil =>
    obtain ⟨before, blank, same⟩ := mem_enclosed_nil.1 there
    obtain rfl := (List.cons.inj same).2
    rw [List.append_assoc, Reader.items, List.singleton_append, trim_blanks_cons blank (by decide)]
    rfl
  | cons first others =>
    obtain ⟨before, t, more, blank, rfl, still, same⟩ := mem_enclosed_cons.1 there
    obtain rfl := (List.cons.inj same).2
    have enough := length_behind still
    obtain ⟨c, tail, start, shown, closed⟩ := first.begins
    rw [List.append_assoc, List.append_assoc, Reader.items]
    have opening : trim (before ++ (t ++ (more ++ rest))) = c :: (tail ++ (more ++ rest)) := by
      rw [start]
      exact trim_blanks_cons blank shown _
    rw [opening]
    split
    · rename_i bracket
      exact absurd (List.cons.inj bracket).1 closed
    · exact itemsFrom_behind first others (by simp only [List.length_append]; omega) still blank
        rest

/-- A list comes of an array if its items come of the texts in it. -/
theorem yields_list (each : List.Forall₂ (Yields item) ts outcomes)
    (there : text ∈ array (fixed ts)) : Yields (list item) text (outcomes.mapM id) := by
  obtain ⟨inner, rfl, begins⟩ := begins_enclosed (by decide) (by decide) there
  refine ⟨begins, fun blanks rest blank _ => ?_⟩
  rw [list, List.cons_append, punctuation_blanks blank (by decide)]
  exact items_array each there rest

end Lists
end SerialDispatch.Texts
