import Mathlib.Data.List.ReduceOption
import SerialDispatch.Proofs.Json.Members
import SerialDispatch.Proofs.Json.Texts

/-!
# Spellings

A value can be written in more ways than one: the members of a record in any order and among others,
or all of them as an array; an alternative without content by its name or as an object; blanks
between the tokens. The spellings of a value are the texts that come of its written form in these
ways. With them come the texts that have one fault, sorted by the problem that it is answered with:
a member that comes twice, or an array with a member too few or too many.

A reader `Answers` a spelling with a value if it takes the value from every right text, and reports
the problem of every wrong one.
-/
namespace SerialDispatch
open Reader Texts

structure Spelling where
  right : Language Char
  wrong : DecodeError → Language Char

namespace Spelling

/-- As it is written, in no other way. -/
def written (json : Json) : Spelling := ⟨{json.chars}, fun _ => 0⟩

/-- An object without members. -/
def vacant : Spelling := ⟨object [], fun _ => 0⟩

/-- The name of an alternative without content, alone or with `null` in place of the content. -/
def plain (name : String) : Spelling :=
  ⟨{(Json.string name).chars} + object [member name {Json.null.chars}], fun _ => 0⟩

/-- The name of an alternative with its content. -/
def laden (name : String) (content : Spelling) : Spelling :=
  ⟨object [member name content.right], fun e => object [member name (content.wrong e)]⟩

/-- An array of the items, all of them right or one of them wrong. -/
def list (items : List Spelling) : Spelling where
  right := array (items.map right)
  wrong e := {text | ∃ before s after, items = before ++ s :: after ∧
    text ∈ array (before.map right ++ s.wrong e :: after.map right)}

/-- A member of a record. -/
structure Field where
  name : String
  value : Spelling
  /-- The right spellings of all values that the member can have. -/
  values : Language Char
  /-- Whether the member may be left out of an object. -/
  omissible : Bool
  /-- What an array of the others is answered with. -/
  missing : DecodeError

namespace Field

/-- A member with this value, which has to be there. -/
def of {α : Type} (name : String) (spell : α → Spelling) (a : α) : Field :=
  ⟨name, spell a, {text | ∃ b, text ∈ (spell b).right}, false, .malformed⟩

/-- The member with any of the values that it can have. -/
def again (f : Field) : Field := { f with value := ⟨f.values, fun _ => 0⟩ }

/-- The member with a value that has a fault. -/
def spoilt (f : Field) (e : DecodeError) : Field :=
  { f with value := ⟨f.value.wrong e, fun _ => 0⟩, omissible := false }

end Field

/-- Values of members that are no member of a record. -/
def scalar : Language Char := {text | text = Json.null.chars ∨
  (∃ n : UInt64, text = (Json.nat n.toNat).chars) ∨ ∃ s, text = (Json.string s).chars}

/-- A member of one of the other names. -/
def strange (names : List String) : Language Char :=
  {text | ∃ name ∉ names, text ∈ member name scalar}

/-- This member, or else one of another name. -/
def memberOf (names : List String) : Option Field → Language Char
  | some f => member f.name f.value.right
  | none => strange names

/-- An object of these members in this order. -/
def objectOf (names : List String) (items : List (Option Field)) : Language Char :=
  object (items.map (memberOf names))

def arrayOf (fields : List Field) : Language Char := array (fields.map (·.value.right))

/-- The members in any order and among others, less some of those that may be left out. -/
def objects (fields : List Field) : Language Char :=
  {text | ∃ items left, (items.reduceOption ++ left).Perm fields ∧
    (∀ f ∈ left, f.omissible = true) ∧ text ∈ objectOf (fields.map Field.name) items}

/-- A text of the members, or of the elements of an array, with one fault. -/
inductive Faulty (members elements : List Field) : DecodeError → List Char → Prop
  /-- Members that are there come again. -/
  | repeated {items kept left again text} (all : (kept ++ left).Perm members)
    (may : ∀ f ∈ left, f.omissible = true) (some : again ≠ []) (twice : again ⊆ kept)
    (order : items.reduceOption.Perm (kept ++ again.map Field.again))
    (there : text ∈ objectOf (members.map Field.name) items) :
    Faulty members elements .duplicateField text
  /-- The value of a member has a fault. -/
  | spoiltMember {before f after e text} (here : members = before ++ f :: after)
    (there : text ∈ objects (before ++ f.spoilt e :: after)) : Faulty members elements e text
  /-- An array goes on behind the last element. -/
  | overlong {more text} (some : more ≠ [])
    (each : ∀ l ∈ more, l = scalar ∨ ∃ f ∈ elements, l = f.values)
    (there : text ∈ array (elements.map (·.value.right) ++ more)) :
    Faulty members elements .malformed text
  /-- An element is left out of an array. -/
  | lacking {before f after text} (here : elements = before ++ f :: after)
    (there : text ∈ arrayOf (before ++ after)) : Faulty members elements f.missing text
  /-- An element has a fault. -/
  | spoiltElement {before f after e text} (here : elements = before ++ f :: after)
    (there : text ∈ arrayOf (before ++ f.spoilt e :: after)) : Faulty members elements e text

/-- Members in an object, or else elements in an array. -/
def shapes (members elements : List Field) : Spelling :=
  ⟨objects members + arrayOf elements, fun e => {text | Faulty members elements e text}⟩

def record (fields : List Field) : Spelling := shapes fields fields

theorem opens_shapes {members elements : List Field} {text : List Char}
    (there : text ∈ (shapes members elements).right) :
    ∃ c inner, text = c :: inner ∧ (c = '\x7b' ∨ c = '[') := by
  rcases there with ⟨items, left, -, -, there⟩ | there
  · obtain ⟨inner, start, -⟩ := begins_enclosed (by decide) (by decide) there
    exact ⟨_, inner, start, .inl rfl⟩
  · obtain ⟨inner, start, -⟩ := begins_enclosed (by decide) (by decide) there
    exact ⟨_, inner, start, .inr rfl⟩

/-- Texts of members stand for what the members stand for. -/
theorem exists_items {β : Type} {Stands : List Char → Option β → Prop} {P : β → Field → Prop}
    {names : List String} {fields : List (Option Field)} {ts : List (List Char)}
    (others : ∀ t ∈ strange names, Stands t none)
    (known : ∀ f ∈ fields.reduceOption, ∀ t ∈ member f.name f.value.right,
      ∃ b, Stands t (some b) ∧ P b f)
    (each : List.Forall₂ (· ∈ ·) ts (fields.map (memberOf names))) :
    ∃ items, List.Forall₂ Stands ts items ∧
      List.Forall₂ P items.reduceOption fields.reduceOption := by
  induction fields generalizing ts with
  | nil =>
    cases each
    exact ⟨[], .nil, .nil⟩
  | cons field fields ih =>
    obtain ⟨t, ts, here, later, rfl⟩ := List.forall₂_cons_right_iff.1 each
    cases field with
    | none =>
      obtain ⟨items, stand, holds⟩ := ih known later
      exact ⟨none :: items, .cons (others t here) stand, holds⟩
    | some f =>
      rw [List.reduceOption_cons_of_some, List.forall_mem_cons] at known
      obtain ⟨items, stand, holds⟩ := ih known.2 later
      obtain ⟨b, stands, holds'⟩ := known.1 t here
      refine ⟨some b :: items, .cons stands stand, ?_⟩
      rw [List.reduceOption_cons_of_some, List.reduceOption_cons_of_some]
      exact .cons holds' holds

section Own

variable {ls : List (Language Char)}

theorem moreItems_mem {items : List Json} (each : List.Forall₂ (·.chars ∈ ·) items ls) :
    Json.moreItems items ++ [']'] ∈ behind ']' ls := by
  induction each with
  | nil => exact mem_behind_nil.2 ⟨[], allBlank_nil, rfl⟩
  | cons here _ ih =>
    exact mem_behind_cons.2 ⟨[], [], _, _, allBlank_nil, allBlank_nil, here, ih,
      by simp [Json.moreItems]⟩

/-- What is written of a list is one of its texts. -/
theorem array_mem {items : List Json} (each : List.Forall₂ (·.chars ∈ ·) items ls) :
    (Json.array items).chars ∈ array ls := by
  cases each with
  | nil => exact mem_enclosed_nil.2 ⟨[], allBlank_nil, rfl⟩
  | cons here others =>
    exact mem_enclosed_cons.2 ⟨[], _, _, allBlank_nil, here, moreItems_mem others,
      by simp [Json.chars, Json.itemsChars]⟩

/-- What is written of a member. -/
def memberChars (m : String × Json) : List Char := Json.quoted m.1.toList ++ ':' :: m.2.chars

theorem memberChars_mem {m : String × Json} {value : Language Char} (own : m.2.chars ∈ value) :
    memberChars m ∈ member m.1 value :=
  mem_member.2 ⟨[], [], _, allBlank_nil, allBlank_nil, own, rfl⟩

theorem moreMembers_mem {ms : List (String × Json)}
    (each : List.Forall₂ (memberChars · ∈ ·) ms ls) :
    Json.moreMembers ms ++ ['\x7d'] ∈ behind '\x7d' ls := by
  induction each with
  | nil => exact mem_behind_nil.2 ⟨[], allBlank_nil, rfl⟩
  | cons here _ ih =>
    exact mem_behind_cons.2 ⟨[], [], _, _, allBlank_nil, allBlank_nil, here, ih,
      by simp [Json.moreMembers, memberChars]⟩

theorem object_mem {ms : List (String × Json)} (each : List.Forall₂ (memberChars · ∈ ·) ms ls) :
    (Json.object ms).chars ∈ object ls := by
  cases each with
  | nil => exact mem_enclosed_nil.2 ⟨[], allBlank_nil, rfl⟩
  | cons here others =>
    exact mem_enclosed_cons.2 ⟨[], _, _, allBlank_nil, here, moreMembers_mem others,
      by simp [Json.chars, Json.membersChars, memberChars]⟩

theorem list_right {α : Type} {write : α → Json} {spell : α → Spelling} (as : List α)
    (each : ∀ a ∈ as, (write a).chars ∈ (spell a).right) :
    (Json.ofList write as).chars ∈ (list (as.map spell)).right := by
  refine array_mem ?_
  rw [List.map_map, List.forall₂_map_left_iff, List.forall₂_map_right_iff, List.forall₂_same]
  exact each

/-- What is written of a record is one of its texts. -/
theorem objects_right {ms : List (String × Json)} {fields : List Field}
    (each : List.Forall₂ (fun m f => m.1 = f.name ∧ m.2.chars ∈ f.value.right) ms fields) :
    (Json.object ms).chars ∈ objects fields := by
  refine ⟨fields.map some, [], ?_, nofun, object_mem ?_⟩
  · simp [List.reduceOption, List.filterMap_map]
  · rw [List.map_map, List.forall₂_map_right_iff]
    refine each.imp fun m f own => ?_
    obtain ⟨name, own⟩ := own
    show memberChars m ∈ member f.name f.value.right
    exact name ▸ memberChars_mem own

end Own

/-- Every member of an object has a value. -/
theorem exists_value {names : List String} {items : List (Option Field)} {text : List Char}
    (there : text ∈ objectOf names items) : ∀ f ∈ items.reduceOption, ∃ u, u ∈ f.value.right := by
  obtain ⟨ts, each, -⟩ := exists_enclosed there
  obtain ⟨_, -, holds⟩ := @exists_items Unit (fun _ _ => True)
    (fun _ f => (∃ u, u ∈ f.value.right) ∧ True) _ _ _ (fun _ _ => trivial)
    (fun f _ t within => by
      obtain ⟨_, _, u, -, -, inside, -⟩ := mem_member.1 within
      exact ⟨(), trivial, ⟨u, inside⟩, trivial⟩) each
  exact ((List.forall₂_and_left _ _).1 (List.Forall₂.flip holds)).1

end Spelling

/-- Every right text is read as the value, and every wrong one has its problem reported. -/
structure Reader.Answers {α : Type} (read : Reader α) (s : Spelling) (a : α) : Prop where
  right : ∀ text ∈ s.right, Yields read text (.ok a)
  wrong : ∀ e, ∀ text ∈ s.wrong e, Yields read text (.error e)

namespace Reader

variable {α β : Type} {read : Reader α} {s : Spelling} {a : α}

theorem Answers.map (answers : Answers read s a) (make : α → β) :
    Answers (fun cs => do let (a, rest) ← read cs; return (make a, rest)) s (make a) :=
  ⟨fun text there => (answers.right text there).map make,
    fun e text there => (answers.wrong e text there).map make⟩

theorem collect_right (as : List α) :
    (as.map .ok : List (Except DecodeError α)).mapM id = .ok as := by
  induction as with
  | nil => rfl
  | cons a as ih =>
    rw [List.map_cons, collect_ok, ih]
    rfl

/-- The first problem is the problem of the whole. -/
theorem collect_wrong (as : List α) (e : DecodeError) (others : List (Except DecodeError α)) :
    (as.map Except.ok ++ Except.error e :: others).mapM id = Except.error e := by
  induction as with
  | nil => exact collect_error e others
  | cons a as ih =>
    rw [List.map_cons, List.cons_append, collect_ok, ih]
    rfl

/-- Texts of the items yield what all texts of each item yield. -/
theorem forall_yields {ts : List (List Char)} {ls : List (Language Char)}
    {outcomes : List (Except DecodeError α)} (each : List.Forall₂ (· ∈ ·) ts ls)
    (yields : List.Forall₂ (fun l outcome => ∀ t ∈ l, Yields read t outcome) ls outcomes) :
    List.Forall₂ (Yields read) ts outcomes := by
  induction yields generalizing ts with
  | nil =>
    cases each
    exact .nil
  | cons first _ ih =>
    cases each with
    | cons here others => exact .cons (first _ here) (ih others)

theorem forall_right {spell : α → Spelling} (answers : ∀ a, Answers read (spell a) a)
    (as : List α) : List.Forall₂ (fun l outcome => ∀ t ∈ l, Yields read t outcome)
      ((as.map spell).map Spelling.right) (as.map .ok) := by
  rw [List.map_map, List.forall₂_map_left_iff, List.forall₂_map_right_iff, List.forall₂_same]
  exact fun a _ => (answers a).right

theorem answers_list {spell : α → Spelling} (answers : ∀ a, Answers read (spell a) a)
    (as : List α) : Answers (list read) (.list (as.map spell)) as := by
  refine ⟨fun text there => ?_, fun e text => ?_⟩
  · obtain ⟨ts, each, there⟩ := exists_enclosed there
    have yields := yields_list (forall_yields each (forall_right answers as)) there
    rwa [collect_right] at yields
  · rintro ⟨before, s, after, items, there⟩
    obtain ⟨first, others, rfl, rfl, later⟩ := List.map_eq_append_iff.1 items
    obtain ⟨a, last, rfl, rfl, rfl⟩ := List.map_eq_cons_iff.1 later
    obtain ⟨ts, each, there⟩ := exists_enclosed there
    have yields := yields_list (forall_yields each (List.rel_append (forall_right answers first)
      (.cons ((answers a).wrong e) (forall_right answers last)))) there
    rwa [collect_wrong] at yields

theorem Yields.answers {json : Json} (yields : Yields read json.chars (.ok a)) :
    Answers read (.written json) a := by
  refine ⟨fun text there => ?_, fun e text there => absurd there (Language.notMem_zero text)⟩
  obtain rfl := Set.mem_singleton_iff.1 there
  exact yields

end Reader

namespace Choice

variable {α : Type} {C : Choice α} {name : String} {text inner : List Char} {a : α}

theorem mem_object_single {value : Language Char} (there : text ∈ object [member name value]) :
    ∃ inner ∈ value, text ∈ object [member name {inner}] := by
  obtain ⟨before, first, others, blank, here, still, rfl⟩ := mem_enclosed_cons.1 there
  obtain ⟨gap, gap', inner, blank', blank'', within, rfl⟩ := mem_member.1 here
  exact ⟨inner, within, mem_enclosed_cons.2 ⟨before, _, others, blank,
    mem_member.2 ⟨gap, gap', inner, blank', blank'', rfl, rfl⟩, still, rfl⟩⟩

/-- An object yields what its content yields behind the name. -/
theorem yields_object {outcome : Except DecodeError α}
    (gives : ∀ gap gap' rest, AllBlank gap → AllBlank gap' → Ends rest →
      C.content name (gap ++ ':' :: (gap' ++ (inner ++ rest))) = outcome.map fun a => (a, rest))
    (there : text ∈ object [member name {inner}]) : Yields C.reader text outcome := by
  obtain ⟨before, _, _, blank, here, still, rfl⟩ := mem_enclosed_cons.1 there
  obtain ⟨gap, gap', inner, blank', blank'', rfl, rfl⟩ := mem_member.1 here
  obtain ⟨tail, blankTail, rfl⟩ := mem_behind_nil.1 still
  refine ⟨⟨_, _, rfl, by decide, by decide⟩, fun blanks rest blankBefore _ => ?_⟩
  have found := gives gap gap' (tail ++ '\x7d' :: rest) blank' blank''
    (by simpa using ends_behind (.inr rfl) still rest)
  have named := trims_string.blanks blank (Json.quoted name.toList ++
    (gap ++ ':' :: (gap' ++ (inner ++ (tail ++ '\x7d' :: rest)))))
  rw [string_quoted] at named
  rw [reader]
  simp only [List.cons_append, List.append_assoc, trim_blanks_cons blankBefore
    (show isBlank '\x7b' = false by decide), List.nil_append, named, bind, Except.bind, found]
  cases outcome with
  | error e => rfl
  | ok a =>
    simp only [Except.map, punctuation_blanks blankTail (show isBlank '\x7d' = false by decide)]
    rfl

/-- The content of an alternative is read behind a colon. -/
theorem yields_content {read : Reader α} {outcome : Except DecodeError α}
    (content : ∀ cs, C.content name cs = (punctuation ':' cs >>= read))
    (yields : Yields read inner outcome) (there : text ∈ object [member name {inner}]) :
    Yields C.reader text outcome := by
  refine yields_object (fun gap gap' rest blank blank' ends => ?_) there
  rw [content, punctuation_blanks blank (by decide)]
  exact yields.gives gap' rest blank' ends

theorem trims_bare : Trims C.bare := fun cs => by simp only [bare, trims_string cs]

theorem opensWith_bare : OpensWith C.bare (· = '"') := by
  intro blanks c more blank shown foreign
  rw [bare, opensWith_string blanks c more blank shown foreign]
  rfl

theorem trims_reader : Trims C.reader := fun cs => by
  simp only [reader, trim_trim, trims_bare cs]

theorem opensWith_reader : OpensWith C.reader fun c => c = '"' || c = '\x7b' := by
  intro blanks c more blank shown foreign
  rw [Bool.or_eq_false_iff] at foreign
  rw [reader, trim_blanks_cons blank shown]
  split
  · rename_i same
    exact absurd (List.cons.inj same).1 (of_decide_eq_false foreign.1)
  · rename_i same
    exact absurd (List.cons.inj same).1 (of_decide_eq_false foreign.2)
  · rfl

/-- An alternative without content answers its spellings. -/
theorem answers_plain (known : C.plain.lookup name = some a) :
    Answers C.reader (.plain name) a := by
  refine ⟨fun text there => ?_, fun e text there => absurd there (Language.notMem_zero text)⟩
  rcases there with alone | there
  · obtain rfl := Set.mem_singleton_iff.1 alone
    exact (reads_bare known).yields trims_reader
  · obtain ⟨inner, null, there⟩ := mem_object_single there
    obtain rfl := Set.mem_singleton_iff.1 null
    refine yields_content (fun cs => ?_) (yields_null.map fun _ => a) there
    rw [content, known]

/-- An alternative with content answers its spellings if its content does. -/
theorem answers_laden {read : Reader α} {s : Spelling} (known : C.laden.lookup name = some read)
    (only : C.plain.lookup name = none) (answers : Answers read s a) :
    Answers C.reader (.laden name s) a := by
  have content : ∀ cs, C.content name cs = (punctuation ':' cs >>= read) := fun cs => by
    rw [Choice.content, known, only]
  refine ⟨fun text there => ?_, fun e text there => ?_⟩
  · obtain ⟨inner, within, there⟩ := mem_object_single there
    exact yields_content content (answers.right inner within) there
  · obtain ⟨inner, within, there⟩ := mem_object_single there
    exact yields_content content (answers.wrong e inner within) there

section Unknown

variable (unknown : C.plain.lookup name = none) (unknown' : C.laden.lookup name = none)

include unknown unknown' in
/-- A name that no alternative has, alone. -/
theorem bare_unknown {blanks : List Char} (blank : AllBlank blanks) (rest : List Char) :
    C.bare (blanks ++ ((Json.string name).chars ++ rest)) = .error .unknownVariant := by
  rw [trims_bare.blanks blank, bare, Json.chars, string_quoted]
  simp only [bind, Except.bind, unknown, unknown']
  rfl

include unknown unknown' in
theorem yields_unknown_object {value : Language Char} (there : text ∈ object [member name value]) :
    Yields C.reader text (.error .unknownVariant) := by
  obtain ⟨inner, -, there⟩ := mem_object_single there
  refine yields_object (fun _ _ _ _ _ _ => ?_) there
  rw [content, unknown, unknown']
  rfl

include unknown unknown' in
theorem yields_unknown : Yields C.reader (Json.string name).chars (.error .unknownVariant) := by
  have begins : Begins (Json.string name).chars := (reads_string name).opens
  refine ⟨begins, fun blanks rest blank _ => ?_⟩
  rw [trims_reader.blanks blank]
  obtain ⟨more, text⟩ : ∃ more, (Json.string name).chars ++ rest = '"' :: more := by
    rw [Json.chars]
    exact ⟨_, rfl⟩
  rw [reader, text, trim_cons (by decide), ← text]
  exact bare_unknown unknown unknown' allBlank_nil rest

end Unknown

end Choice
end SerialDispatch
