import SerialDispatch.Proofs.Json.Records

/-!
# Records answer their spellings

A sheet says how the members of a record are spelled, for one value of each. If the reader of every
member answers these spellings, then the reader of the record answers the spellings of the record:
`Record.answers`.
-/
namespace SerialDispatch.Record
open Reader Texts Spelling

variable {ι : Type}

/-- One value of each member, and how it is spelled. -/
structure Sheet (R : Record ι) where
  spell : (i : ι) → R.Value i → Spelling
  values : (i : ι) → R.Value i
  omissible : ι → Bool
  missing : ι → DecodeError

namespace Sheet

variable {R : Record ι}

def field (S : R.Sheet) (i : ι) : Field :=
  ⟨R.name i, S.spell i (S.values i), {text | ∃ v, text ∈ (S.spell i v).right}, S.omissible i,
    S.missing i⟩

def fields (S : R.Sheet) : List Field := R.order.map S.field

/-- What becomes of an array when a member is left out: the next one cannot stand in its place, or
it is the last one and stands there too early. -/
def Shifted (S : R.Sheet) : List ι → Prop
  | [] => True
  | [i] => S.missing i = .malformed
  | i :: j :: rest => (∀ text ∈ (S.spell j (S.values j)).right,
      Yields (R.read i) text (.error (S.missing i)) ∨
        rest = [] ∧ S.missing i = .malformed ∧ ∃ v, Yields (R.read i) text (.ok v)) ∧
      Shifted S (j :: rest)

variable {S : R.Sheet}

theorem mem_fields {f : Field} (there : f ∈ S.fields) : ∃ i, f = S.field i := by
  obtain ⟨i, -, rfl⟩ := List.mem_map.1 there
  exact ⟨i, rfl⟩

theorem names_fields : S.fields.map Field.name = R.order.map R.name := List.map_map

theorem Shifted.behind {before after : List ι} (shifted : S.Shifted (before ++ after)) :
    S.Shifted after := by
  induction before with
  | nil => exact shifted
  | cons i before ih =>
    refine ih ?_
    cases rest : before ++ after with
    | nil => trivial
    | cons j others =>
      rw [List.cons_append, rest] at shifted
      exact shifted.2

variable [DecidableEq ι]

/-- The members are read as they are spelled, and make this value. -/
structure Sound (S : R.Sheet) {α : Type} (build : R.Slots → Except DecodeError α) (a : α) :
    Prop where
  named : R.Named
  apart : R.order.Nodup
  nonempty : R.order ≠ []
  answers : ∀ i v, Answers (R.read i) (S.spell i v) v
  /-- No value begins with the bracket that closes an array. -/
  bracket : ∀ i blanks rest, AllBlank blanks →
    R.read i (blanks ++ ']' :: rest) = .error .malformed
  built : ∀ slots : R.Slots, (∀ i, slots i = some (S.values i) ∨
    S.omissible i = true ∧ slots i = Option.none) → build slots = .ok a
  shifted : S.Shifted R.order

end Sheet

variable [DecidableEq ι] {R : Record ι} {S : R.Sheet} {α : Type}
variable {build : R.Slots → Except DecodeError α} {a : α} {text : List Char}

theorem Named.mem_order (named : R.Named) (i : ι) : i ∈ R.order :=
  List.mem_of_find?_eq_some (named i)

theorem Named.injective (named : R.Named) {i j : ι} (same : R.name i = R.name j) : i = j := by
  have found := named i
  rw [same, named j] at found
  exact (Option.some.inj found).symm

section Objects

theorem Named.apart (named : R.Named) (apart : R.order.Nodup) :
    (S.fields.map Field.name).Nodup := by
  rw [Sheet.names_fields]
  exact apart.map fun i j same => named.injective same

/-- What an object yields, by what is known of its members. -/
theorem exists_readings (sound : S.Sound build a) {P : R.Reading → Prop}
    {items : List (Option Field)}
    (known : ∀ f ∈ items.reduceOption, ∀ u ∈ f.value.right, ∃ r : R.Reading,
      f.name = R.name r.index ∧ Yields (R.read r.index) u r.outcome ∧ P r)
    (there : text ∈ objectOf (S.fields.map Field.name) items) :
    ∃ rs : List R.Reading, rs.map (R.name ·.index) = items.reduceOption.map Field.name ∧
      (∀ r ∈ rs, P r) ∧ Yields (R.reader build) text (takeAll R.none rs >>= build) := by
  have foreign : ∀ other ∉ S.fields.map Field.name, R.member? other = Option.none := by
    intro other unlisted
    refine List.find?_eq_none.2 fun i there same => unlisted ?_
    rw [Sheet.names_fields]
    exact List.mem_map.2 ⟨i, there, eq_of_beq same⟩
  obtain ⟨ts, each, there⟩ := exists_enclosed there
  obtain ⟨members, stand, same, holds⟩ := exists_standing foreign known each
  exact ⟨_, same, holds, yields_object sound.named stand there build⟩

theorem index_nodup (sound : S.Sound build a) {rs : List R.Reading} {fields left : List Field}
    (all : ((fields ++ left).map Field.name).Perm (S.fields.map Field.name))
    (same : rs.map (R.name ·.index) = fields.map Field.name) : (rs.map Reading.index).Nodup := by
  have names := (sound.named.apart (S := S) sound.apart).perm all.symm
  rw [List.map_append] at names
  have nodup : (rs.map (R.name ·.index)).Nodup := same ▸ (List.nodup_append.1 names).1
  exact List.Nodup.of_map R.name (by rwa [List.map_map])

theorem yields_objects (sound : S.Sound build a) (there : text ∈ objects S.fields) :
    Yields (R.reader build) text (.ok a) := by
  obtain ⟨items, left, all, may, there⟩ := there
  obtain ⟨rs, same, read, yields⟩ := exists_readings sound
    (P := fun r => r.outcome = .ok (S.values r.index)) (fun f here u within => by
      obtain ⟨i, rfl⟩ := Sheet.mem_fields (all.subset (List.mem_append_left left here))
      exact ⟨⟨i, _⟩, rfl, (sound.answers i (S.values i)).right u within, rfl⟩) there
  have apart := index_nodup sound (all.map Field.name) same
  rw [takeAll_right read apart fun _ _ => rfl] at yields
  have built : build (putAll S.values R.none (rs.map Reading.index)) = .ok a := by
    refine sound.built _ fun i => ?_
    rw [putAll_apply]
    by_cases given : i ∈ rs.map Reading.index
    · exact .inl (if_pos given)
    · refine .inr ⟨?_, if_neg given⟩
      -- A member that is not there is one of those that are left out.
      have listed : S.field i ∈ items.reduceOption ++ left :=
        all.symm.subset (List.mem_map_of_mem (sound.named.mem_order i))
      rcases List.mem_append.1 listed with kept | gone
      · have name : R.name i ∈ rs.map (R.name ·.index) := by
          rw [same]
          exact List.mem_map_of_mem (f := Field.name) kept
        obtain ⟨r, here, name⟩ := List.mem_map.1 name
        exact absurd (List.mem_map.2 ⟨r, here, sound.named.injective name⟩) given
      · exact may _ gone
  rwa [show (Except.ok _ >>= build) = build _ from rfl, built] at yields

/-- A member that is there twice is reported. -/
theorem yields_repeated (sound : S.Sound build a) {items : List (Option Field)}
    {kept left again : List Field} (all : (kept ++ left).Perm S.fields) (some : again ≠ [])
    (twice : again ⊆ kept) (order : items.reduceOption.Perm (kept ++ again.map Field.again))
    (there : text ∈ objectOf (S.fields.map Field.name) items) :
    Yields (R.reader build) text (.error .duplicateField) := by
  obtain ⟨rs, same, read, yields⟩ := exists_readings sound
    (P := fun r => ∃ v, r.outcome = .ok v) (fun f here u within => by
      rcases List.mem_append.1 (order.subset here) with first | second
      · obtain ⟨i, rfl⟩ := Sheet.mem_fields (all.subset (List.mem_append_left left first))
        exact ⟨⟨i, _⟩, rfl, (sound.answers i (S.values i)).right u within, _, rfl⟩
      · obtain ⟨g, member, rfl⟩ := List.mem_map.1 second
        obtain ⟨i, rfl⟩ := Sheet.mem_fields (all.subset (List.mem_append_left left (twice member)))
        obtain ⟨v, within⟩ : ∃ v, u ∈ (S.spell i v).right := within
        exact ⟨⟨i, _⟩, rfl, (sound.answers i v).right u within, v, rfl⟩) there
  have repeated : ¬ (rs.map Reading.index).Nodup := by
    intro apart
    have names : (rs.map (R.name ·.index)).Nodup := by
      have := apart.map fun i j same => sound.named.injective same
      rwa [List.map_map] at this
    rw [same, (order.map Field.name).nodup_iff, List.map_append] at names
    obtain ⟨f, others, rfl⟩ := List.exists_cons_of_ne_nil some
    exact (List.nodup_append.1 names).2.2 f.name (List.mem_map_of_mem (twice List.mem_cons_self))
      f.name (by simp [Field.again]) rfl
  rwa [takeAll_repeated read (.inl repeated)] at yields

/-- A problem with the value of a member is reported. -/
theorem yields_spoilt_object (sound : S.Sound build a) {before after : List Field} {f : Field}
    {e : DecodeError} (here : S.fields = before ++ f :: after)
    (there : text ∈ objects (before ++ f.spoilt e :: after)) :
    Yields (R.reader build) text (.error e) := by
  obtain ⟨items, left, all, may, there⟩ := there
  obtain ⟨i, rfl⟩ := Sheet.mem_fields (S := S) (f := f) (by rw [here]; simp)
  have names :
      (before ++ (S.field i).spoilt e :: after).map Field.name = S.fields.map Field.name := by
    rw [here]
    simp [Field.spoilt]
  have apart := sound.named.apart (S := S) sound.apart
  have others : ∀ j, S.field j ∈ before ++ after → j ≠ i := by
    rintro j other rfl
    rw [here, List.map_append, List.map_cons, List.nodup_middle, List.nodup_cons,
      ← List.map_append] at apart
    exact apart.1 (List.mem_map_of_mem other)
  rw [names] at there
  obtain ⟨rs, same, read, yields⟩ := exists_readings sound
    (P := fun r => (r.index = i → r.outcome = .error e) ∧
      (r.outcome = .error e ∨ ∃ v, r.outcome = .ok v)) (fun g given u within => by
      have listed : g = (S.field i).spoilt e ∨ g ∈ before ++ after :=
        List.mem_cons.1 (List.perm_middle.subset (all.subset (List.mem_append_left left given)))
      rcases listed with rfl | other
      · exact ⟨⟨i, _⟩, rfl, (sound.answers i (S.values i)).wrong e u within,
          fun _ => rfl, .inl rfl⟩
      · obtain ⟨j, rfl⟩ := Sheet.mem_fields (S := S) (f := g) (by
          rw [here]
          exact List.perm_middle.symm.subset (List.mem_cons_of_mem _ other))
        exact ⟨⟨j, _⟩, rfl, (sound.answers j (S.values j)).right u within,
          fun same => absurd same (others j other), .inr ⟨_, rfl⟩⟩) there
  have spoilt : (S.field i).spoilt e ∈ items.reduceOption := by
    have there : (S.field i).spoilt e ∈ items.reduceOption ++ left := all.symm.subset (by simp)
    rcases List.mem_append.1 there with kept | gone
    · exact kept
    · exact absurd (may _ gone) (by simp [Field.spoilt])
  have name : R.name i ∈ rs.map (R.name ·.index) := by
    rw [same]
    exact List.mem_map_of_mem (f := Field.name) spoilt
  obtain ⟨r, given, name⟩ := List.mem_map.1 name
  have distinct := index_nodup sound (names ▸ all.map Field.name) same
  rwa [takeAll_wrong (fun r given => (read r given).2)
    ⟨r, given, (read r given).1 (sound.named.injective name)⟩ distinct fun _ _ => rfl] at yields

end Objects

section Arrays

variable {is js : List ι} {i : ι} {item : Language Char} {items : List (Language Char)}

/-- An array of values that fill the slots up to some member, by what comes of the rest. -/
theorem yields_array_from (sound : S.Sound build a) (order : R.order = is ++ i :: js)
    (there : text ∈ array (is.map (fun i => (S.field i).value.right) ++ item :: items))
    (found : Except DecodeError R.Slots)
    (gives : ∀ t ∈ item, ∀ vs, List.Forall₂ (· ∈ ·) vs items → ∀ rest cs, Facing rest (t :: vs) cs →
      R.elements (i :: js) (putAll S.values R.none is) cs = found.map fun slots => (slots, rest)) :
    Yields (R.reader build) text (found >>= build) := by
  obtain ⟨us, t, vs, first, here, later, there⟩ := exists_split there
  have read : List.Forall₂ (fun t i => Yields (R.read i) t (.ok (S.values i))) us is :=
    (List.forall₂_map_right_iff.1 first).imp fun t i => (sound.answers i (S.values i)).right t
  refine yields_array there (by simp) (fun rest cs facing => ?_) build
  obtain ⟨cs', facing, run⟩ := elements_run read facing
  rw [order, run]
  exact gives t here vs later rest cs' facing

omit [DecidableEq ι] in
theorem arrayOf_fields (is : List ι) :
    arrayOf (is.map S.field) = array (is.map fun i => (S.field i).value.right) := by
  rw [arrayOf, List.map_map]
  rfl

theorem yields_arrayOf (sound : S.Sound build a) (there : text ∈ arrayOf S.fields) :
    Yields (R.reader build) text (.ok a) := by
  obtain ⟨is, i, order⟩ := (List.eq_nil_or_concat' R.order).resolve_left sound.nonempty
  rw [Sheet.fields, arrayOf_fields, order, List.map_append] at there
  have yields := yields_array_from sound order there
    (.ok (putAll S.values R.none R.order)) (fun t here vs later rest cs facing => by
      obtain rfl := List.forall₂_nil_right_iff.1 later
      rw [elements_last facing ((sound.answers i (S.values i)).right t here), order]
      simp [putAll, Except.map])
  have built : build (putAll S.values R.none R.order) = .ok a :=
    sound.built _ fun i => .inl (by rw [putAll_apply, if_pos (sound.named.mem_order i)])
  rwa [show (Except.ok _ >>= build) = build _ from rfl, built] at yields

/-- A problem with an element is reported. -/
theorem yields_spoilt_array (sound : S.Sound build a) {before after : List Field} {f : Field}
    {e : DecodeError} (here : S.fields = before ++ f :: after)
    (there : text ∈ arrayOf (before ++ f.spoilt e :: after)) :
    Yields (R.reader build) text (.error e) := by
  obtain ⟨is, others, order, rfl, later⟩ := List.map_eq_append_iff.1 here
  obtain ⟨i, js, rfl, rfl, rfl⟩ := List.map_eq_cons_iff.1 later
  rw [arrayOf, List.map_append, List.map_map, List.map_cons] at there
  exact yields_array_from sound order there (.error e)
    fun t here vs _ rest cs facing =>
      elements_stuck facing ((sound.answers i (S.values i)).wrong e t here) js

/-- An array that goes on behind the last member. -/
theorem yields_overlong (sound : S.Sound build a) {more : List (Language Char)} (some : more ≠ [])
    (there : text ∈ array (S.fields.map (·.value.right) ++ more)) :
    Yields (R.reader build) text (.error .malformed) := by
  obtain ⟨is, i, order⟩ := (List.eq_nil_or_concat' R.order).resolve_left sound.nonempty
  rw [Sheet.fields, order, List.map_map, List.map_append, List.append_assoc] at there
  refine yields_array_from sound order there (.error .malformed)
    fun t here vs later rest cs facing => ?_
  obtain ⟨l, others, rfl⟩ := List.exists_cons_of_ne_nil some
  obtain ⟨u, vs, -, -, rfl⟩ := List.forall₂_cons_right_iff.1 later
  exact elements_long facing ((sound.answers i (S.values i)).right t here)

theorem yields_empty (sound : S.Sound build a) (there : text ∈ array []) :
    Yields (R.reader build) text (.error .malformed) := by
  obtain ⟨-, -, begins⟩ := begins_enclosed (by decide) (by decide) there
  refine ⟨begins, fun blanks rest blank _ => ?_⟩
  obtain ⟨i, is, order⟩ := List.exists_cons_of_ne_nil sound.nonempty
  obtain ⟨gap, blank', rfl⟩ := mem_enclosed_nil.1 there
  have refused : R.read i (gap ++ ([']'] ++ rest)) = .error .malformed :=
    sound.bracket i gap rest blank'
  rw [reader, Record.slots, List.cons_append, trim_blanks_cons blank (by decide),
    List.append_assoc]
  show R.elements R.order R.none _ >>= _ = _
  cases is with
  | nil =>
    rw [order, elements, refused]
    rfl
  | cons j is =>
    rw [order, elements_cons, refused]
    rfl

/-- An array from which a member is left out. -/
theorem yields_lacking (sound : S.Sound build a) {before after : List Field} {f : Field}
    (here : S.fields = before ++ f :: after) (there : text ∈ arrayOf (before ++ after)) :
    Yields (R.reader build) text (.error f.missing) := by
  obtain ⟨is, others, order, rfl, later⟩ := List.map_eq_append_iff.1 here
  obtain ⟨i, js, rfl, rfl, rfl⟩ := List.map_eq_cons_iff.1 later
  have shifted := (order ▸ sound.shifted).behind
  rw [← List.map_append, arrayOf_fields, List.map_append] at there
  cases js with
  | cons j js =>
    refine yields_array_from sound order there (.error (S.missing i))
      fun t here vs later rest cs facing => ?_
    rcases shifted.1 t here with stuck | ⟨rfl, malformed, v, read⟩
    · exact elements_stuck facing stuck _
    · obtain rfl := List.forall₂_nil_right_iff.1 later
      rw [malformed]
      exact elements_short facing read []
  | nil =>
    rw [show (S.field i).missing = .malformed from shifted]
    rcases List.eq_nil_or_concat' is with rfl | ⟨is, k, rfl⟩
    · exact yields_empty sound there
    · rw [List.append_assoc] at order
      rw [List.map_append, List.append_assoc] at there
      refine yields_array_from sound order there (.error .malformed)
        fun t here vs later rest cs facing => ?_
      obtain rfl := List.forall₂_nil_right_iff.1 later
      exact elements_short facing ((sound.answers k (S.values k)).right t here) []

end Arrays

/-- A record answers its spellings if its members answer theirs. -/
theorem answers (sound : S.Sound build a) :
    Answers (R.reader build) (.record S.fields) a := by
  constructor
  · intro text there
    rcases there with there | there
    · exact yields_objects sound there
    · exact yields_arrayOf sound there
  · intro e text fault
    cases fault with
    | repeated all may some twice order there =>
      exact yields_repeated sound all some twice order there
    | spoiltMember here there => exact yields_spoilt_object sound here there
    | overlong some each there => exact yields_overlong sound some there
    | lacking here there => exact yields_lacking sound here there
    | spoiltElement here there => exact yields_spoilt_array sound here there

end SerialDispatch.Record
