import SerialDispatch.Proofs.Json.Spelling

/-!
# Values of which nothing, or any value, is wanted

Members of other names hold numbers, strings and `null`, which are passed over: `yields_skip`. A
value of which it is not yet known what it has to be is checked as a value of any form: `Checked`.
-/
namespace SerialDispatch
open Reader Texts

namespace Reader

/-- A number in digits is a digit first, and no blank. -/
theorem exists_digits (n : Nat) : ∃ c more, Nat.toDigits 10 n = c :: more ∧
    Char.isDigit c = true ∧ isBlank c = false ∧ c ≠ ']' := by
  obtain ⟨c, more, first, shown, open_⟩ := (reads_natural (Nat.lt_succ_self n)).opens
  have digits : (Json.nat n).chars = Nat.toDigits 10 n := by rw [Json.nat, Json.chars]; rfl
  rw [digits] at first
  refine ⟨c, more, first, ?_, shown, open_⟩
  exact Nat.isDigit_of_mem_toDigits (by decide) (by decide) (first ▸ List.mem_cons_self)

theorem scanned_digits {n : Nat} {rest : List Char} (ends : Ends rest) :
    scanned (Nat.toDigits 10 n ++ rest) = .ok (⟨false, Nat.toDigits 10 n, none, none⟩, rest) := by
  have all : ∀ c ∈ Nat.toDigits 10 n, Char.isDigit c = true := fun c h =>
    Nat.isDigit_of_mem_toDigits (by decide) (by decide) h
  obtain ⟨taken, dropped⟩ := ends.takeWhile_digits all
  obtain ⟨c, more, first, digit, -, -⟩ := exists_digits n
  have unsigned : ∀ others, Nat.toDigits 10 n ++ rest ≠ '-' :: others := by
    rintro others same
    rw [first] at same
    obtain rfl := (List.cons.inj same).1
    exact absurd digit (by decide)
  unfold scanned
  split
  rename_i negative cs h
  split at h
  · rename_i same
    exact absurd same (unsigned _)
  · cases h
    simp only [taken, dropped]
    cases rest with
    | nil => simp [isWhole_toDigits]
    | cons d rest =>
      have ended : (d ≠ '.' ∧ d ≠ 'e') ∧ d ≠ 'E' := by simpa using ends.outside.2
      simp [isWhole_toDigits, ended]

/-- What a reader for any value does with a digit in front. -/
theorem skipWithin_digits {depth n : Nat} {blanks rest : List Char} (blank : AllBlank blanks)
    (ends : Ends rest) :
    skipWithin (depth + 1) (blanks ++ (Nat.toDigits 10 n ++ rest)) = .ok ((), rest) := by
  have found := scanned_digits (n := n) ends
  obtain ⟨c, more, first, digit, shown, -⟩ := exists_digits n
  rw [skipWithin, trim_blanks blank]
  rw [first] at found ⊢
  rw [List.cons_append, trim_cons shown]
  split <;> rename_i same <;> try
    (obtain rfl := (List.cons.inj same).1
     exact absurd digit (by decide))
  rw [← List.cons_append, found]
  rfl

/-- Nothing that is written between quotes stands in the way of passing over it. -/
theorem skippable_pieces (text : List Char) : Quoted.skippable (text.map Quoted.piece) = true := by
  simp only [Quoted.skippable, List.all_map, List.all_eq_true, Function.comp]
  intro c _
  by_cases escaped : c = '"' ∨ c = '\\' ∨ c.toNat < 32
  · rw [Quoted.piece, if_pos escaped]
  · rw [Quoted.piece, if_neg escaped]
    exact decide_eq_true (Nat.le_of_not_lt fun control => escaped (.inr (.inr control)))

theorem yields_skip {text : List Char} (there : text ∈ Spelling.scalar) :
    Yields skip text (.ok ()) := by
  rcases there with rfl | ⟨n, rfl⟩ | ⟨s, rfl⟩
  · refine ⟨yields_null.begins, fun blanks rest blank ends => ?_⟩
    rw [skip, skipWithin, Json.chars, trim_blanks blank, List.cons_append, trim_cons (by decide)]
    rfl
  · refine ⟨(yields_word64 n).begins, fun blanks rest blank ends => ?_⟩
    have digits : (Json.nat n.toNat).chars = Nat.toDigits 10 n.toNat := by
      rw [Json.nat, Json.chars]
      rfl
    rw [digits]
    exact skipWithin_digits blank ends
  · refine ⟨(yields_string s).begins, fun blanks rest blank ends => ?_⟩
    rw [skip, skipWithin, Json.chars]
    have shown : trim (blanks ++ (Json.quoted s.toList ++ rest)) = '"' :: _ :=
      trim_blanks_cons blank (by decide) _
    have found : pieces (blanks ++ (Json.quoted s.toList ++ rest)) = _ :=
      (trims_pieces.blanks blank _).trans (pieces_quoted s rest)
    rw [shown]
    simp only [skipWithin.skipString, found, bind, Except.bind, skippable_pieces, if_true]
    rfl

end Reader

namespace Json

/-- The text is a value, with no more than so many arrays and objects inside one another. -/
def Checked (depth : Nat) (text : List Char) : Prop := ∃ json, Yields (read depth) text (.ok json)

section Numbers

theorem le_ofDigitChars (digits : List Char) (n : Nat) : n ≤ Nat.ofDigitChars 10 digits n := by
  induction digits generalizing n with
  | nil => exact Nat.le_refl n
  | cons d digits ih =>
    have step : n ≤ 10 * n + (d.toNat - '0'.toNat) := by omega
    exact Nat.le_trans step (ih _)

/-- Digits of a number that a word holds all find room in it. -/
theorem absorb_eq (digits : List Char) (n : Nat)
    (fits : Nat.ofDigitChars 10 digits n < UInt64.size) :
    Scanned.absorb n digits = (Nat.ofDigitChars 10 digits n, []) := by
  induction digits generalizing n with
  | nil => rfl
  | cons d digits ih =>
    have next : Nat.ofDigitChars 10 (d :: digits) n =
        Nat.ofDigitChars 10 digits (n * 10 + (d.toNat - '0'.toNat)) := by
      rw [Nat.mul_comm]
      rfl
    rw [next] at fits ⊢
    have room := Nat.lt_of_le_of_lt (le_ofDigitChars _ _) fits
    rw [Scanned.absorb]
    simp only [room, if_true]
    exact ih _ fits

theorem roundDouble_le {n : Nat} (positive : n ≠ 0) : Scanned.roundDouble n ≤ 2 * n := by
  have unit : Nat.pow 2 (n.log2 - 52) ≤ n :=
    Nat.le_trans (Nat.pow_le_pow_right (by decide) (Nat.sub_le _ _)) (Nat.log2_self_le positive)
  have whole : n / Nat.pow 2 (n.log2 - 52) * Nat.pow 2 (n.log2 - 52) ≤ n := Nat.div_mul_le_self _ _
  rw [Scanned.roundDouble]
  split
  · omega
  · rw [Nat.succ_mul]
    omega

theorem pow_le_gap {a b c : Nat} (first : b < a) (second : c < a) :
    Nat.pow 2 c ≤ Nat.pow 2 a - Nat.pow 2 b := by
  obtain ⟨d, rfl⟩ := Nat.exists_eq_add_one_of_ne_zero (Nat.ne_zero_of_lt first)
  have least : ∀ {e}, e < d + 1 → Nat.pow 2 e ≤ Nat.pow 2 d := fun below =>
    Nat.pow_le_pow_right (by decide) (Nat.le_of_lt_succ below)
  have small := least first
  have low := least second
  have double : Nat.pow 2 (d + 1) = 2 * Nat.pow 2 d := Nat.pow_succ'
  omega

theorem isFinite_digits (n : UInt64) :
    (⟨false, Nat.toDigits 10 n.toNat, none, none⟩ : Scanned).isFinite = true := by
  have value : Nat.ofDigitChars 10 (Nat.toDigits 10 n.toNat) 0 = n.toNat :=
    Nat.ofDigitChars_ten_toDigits
  have whole : Scanned.absorb 0 (Nat.toDigits 10 n.toNat) = (n.toNat, []) := by
    rw [absorb_eq _ _ (by rw [value]; exact n.toNat_lt), value]
  have magnitude : (⟨false, Nat.toDigits 10 n.toNat, none, none⟩ : Scanned).magnitude =
      (n.toNat, 0) := by
    simp [Scanned.magnitude, whole, Scanned.absorb, Scanned.writtenExponent]
  rw [Scanned.isFinite, magnitude]
  by_cases zero : n.toNat = 0
  · simp [zero]
  · have small : Scanned.roundDouble n.toNat < 2 ^ 65 := by
      have rounded := roundDouble_le zero
      have := n.toNat_lt
      omega
    have bound : Nat.pow 2 65 ≤ Scanned.doubleBound := by
      -- The exponents are variables here, for their powers must not be computed.
      rw [Scanned.doubleBound]
      generalize top : 1024 = a, low : 970 = b
      exact pow_le_gap (by omega) (by omega)
    have one : Scanned.roundDouble 1 = 1 := by decide
    have below : Scanned.roundDouble n.toNat < Scanned.doubleBound := Nat.lt_of_lt_of_le small bound
    simp [one, below]

end Numbers

section Values

variable {depth : Nat} {text : List Char}

theorem checked_number (depth : Nat) (n : UInt64) :
    Checked depth (Json.nat n.toNat).chars := by
  have digits : (Json.nat n.toNat).chars = Nat.toDigits 10 n.toNat := by
    rw [Json.nat, Json.chars]
    rfl
  refine ⟨.number (.integer (Nat.ofDigitChars 10 (Nat.toDigits 10 n.toNat) 0)),
    (yields_word64 n).begins, fun blanks rest blank ends => ?_⟩
  have found := scanned_digits (n := n.toNat) ends
  obtain ⟨c, more, first, digit, shown, -⟩ := exists_digits n.toNat
  rw [digits, read.eq_def, trim_blanks blank]
  rw [first] at found ⊢
  rw [List.cons_append, trim_cons shown]
  split <;> rename_i same <;> try
    (obtain rfl := (List.cons.inj same).1
     exact absurd digit (by decide))
  rw [← List.cons_append, found, ← first]
  simp only [bind, Except.bind, isFinite_digits, if_true]
  rfl

theorem checked_scalar (depth : Nat) (there : text ∈ Spelling.scalar) : Checked depth text := by
  rcases there with rfl | ⟨n, rfl⟩ | ⟨s, rfl⟩
  · refine ⟨.null, yields_null.begins, fun blanks rest blank _ => ?_⟩
    rw [read.eq_def, Json.chars, trim_blanks blank, List.cons_append, trim_cons (by decide)]
    rfl
  · exact checked_number depth n
  · refine ⟨.string s, (yields_string s).begins, fun blanks rest blank ends => ?_⟩
    have found := (yields_string s).gives blanks rest blank ends
    obtain ⟨more, opening⟩ : ∃ more, (Json.string s).chars ++ rest = '"' :: more := by
      rw [Json.chars]
      exact ⟨_, rfl⟩
    rw [opening] at found ⊢
    rw [read.eq_def, trim_blanks_cons blank (by decide)]
    simp only [found]
    rfl

theorem exists_values {ts : List (List Char)} (each : ∀ t ∈ ts, Checked depth t) :
    ∃ values : List Json, List.Forall₂ (Yields (read depth)) ts (values.map .ok) := by
  induction ts with
  | nil => exact ⟨[], .nil⟩
  | cons t ts ih =>
    obtain ⟨value, yields⟩ := each t List.mem_cons_self
    obtain ⟨values, others⟩ := ih fun u there => each u (List.mem_cons_of_mem t there)
    exact ⟨value :: values, .cons yields others⟩

theorem checked_array {items : List (Language Char)}
    (each : ∀ item ∈ items, ∀ t ∈ item, Checked depth t) (there : text ∈ Texts.array items) :
    Checked (depth + 1) text := by
  obtain ⟨ts, members, there⟩ := exists_enclosed there
  obtain ⟨values, yields⟩ := exists_values (forall_members members each)
  obtain ⟨inner, rfl, begins⟩ := begins_enclosed (by decide) (by decide) there
  refine ⟨.array values, begins, fun blanks rest blank _ => ?_⟩
  have found := items_array yields there rest
  rw [collect_right] at found
  rw [List.cons_append, read.eq_def, trim_blanks_cons blank (by decide)]
  show (do let found ← Reader.items (read depth) (inner ++ rest)
           return (Json.array found.1, found.2)) = _
  rw [found]
  rfl

/-- A name with a value. -/
def Held (depth : Nat) (t : List Char) : Prop :=
  ∃ name value, Checked depth value ∧ t ∈ member name {value}

/-- The value of a member is read behind its name. -/
theorem Held.read {t : List Char} (held : Held depth t) : ∃ name value, ∀ blanks rest,
    AllBlank blanks → Ends rest → ∃ colon inner,
      Reader.string (blanks ++ (t ++ rest)) = .ok (name, colon) ∧
      punctuation ':' colon = .ok inner ∧ Json.read depth inner = .ok (value, rest) := by
  obtain ⟨name, _, ⟨value, yields⟩, there⟩ := held
  obtain ⟨gap, gap', inner, blank, blank', rfl, rfl⟩ := mem_member.1 there
  refine ⟨name, value, fun blanks rest blank'' ends => ⟨gap ++ ':' :: (gap' ++ (inner ++ rest)),
    gap' ++ (inner ++ rest), ?_, punctuation_blanks blank (by decide) _,
    yields.gives gap' rest blank' ends⟩⟩
  rw [trims_string.blanks blank'', List.append_assoc, string_quoted, List.append_assoc,
    List.cons_append, List.append_assoc]

theorem membersFrom_held {t : List Char} {ts : List (List Char)} (held : Held depth t)
    (others : ∀ u ∈ ts, Held depth u) (there : text ∈ behind '\x7d' (fixed ts)) :
    ∃ members, ∀ n before rest, ts.length < n → AllBlank before →
      membersFrom Reader.string (Json.read depth) n (before ++ (t ++ (text ++ rest))) =
        .ok (members, rest) := by
  obtain ⟨name, value, first⟩ := held.read
  induction ts generalizing t text name value with
  | nil =>
    refine ⟨[(name, value)], fun n before rest enough blank => ?_⟩
    obtain ⟨n, rfl⟩ : ∃ m, n = m + 1 := ⟨n - 1, by omega⟩
    obtain ⟨colon, inner, named, behind, found⟩ :=
      first before _ blank (ends_behind (.inr rfl) there rest)
    obtain ⟨gap, blank', rfl⟩ := mem_behind_nil.1 there
    rw [membersFrom]
    simp only [named, behind, found, bind, Except.bind]
    rw [List.append_assoc, List.singleton_append, trim_blanks_cons blank' (by decide)]
    rfl
  | cons u ts ih =>
    rw [List.forall_mem_cons] at others
    obtain ⟨gap, gap', more, blank', blank'', still, same⟩ := mem_behind_fixed there
    obtain ⟨name', value', second⟩ := others.1.read
    obtain ⟨members, later⟩ := ih others.1 others.2 still name' value' second
    refine ⟨(name, value) :: members, fun n before rest enough blank => ?_⟩
    obtain ⟨n, rfl⟩ : ∃ m, n = m + 1 := ⟨n - 1, by omega⟩
    obtain ⟨colon, inner, named, behind, found⟩ :=
      first before _ blank (ends_behind (.inr rfl) there rest)
    subst same
    rw [membersFrom]
    simp only [named, behind, found, bind, Except.bind]
    rw [List.append_assoc, List.cons_append, trim_blanks_cons blank' (by decide)]
    simp only [List.append_assoc, later n gap' rest (by simp at enough; omega) blank'']
    rfl

/-- The members of an object, its opening brace read. -/
theorem members_held {ts : List (List Char)} (each : ∀ t ∈ ts, Held depth t)
    (there : '\x7b' :: text ∈ Texts.object (fixed ts)) : ∃ members, ∀ rest,
      Reader.members Reader.string (Json.read depth) (text ++ rest) = .ok (members, rest) := by
  cases ts with
  | nil =>
    obtain ⟨gap, blank, same⟩ := mem_enclosed_nil.1 there
    obtain rfl := (List.cons.inj same).2
    refine ⟨[], fun rest => ?_⟩
    rw [Reader.members, List.append_assoc, List.singleton_append,
      trim_blanks_cons blank (by decide)]
    rfl
  | cons t ts =>
    rw [List.forall_mem_cons] at each
    obtain ⟨gap, t, more, blank, rfl, still, same⟩ := mem_enclosed_cons.1 there
    obtain rfl := (List.cons.inj same).2
    obtain ⟨members, found⟩ := membersFrom_held each.1 each.2 still
    refine ⟨members, fun rest => ?_⟩
    have enough := length_behind still
    obtain ⟨_, _, -, within⟩ := each.1
    obtain ⟨tail, start⟩ := opens_member within
    have opening : trim (gap ++ (t ++ (more ++ rest))) = '"' :: (tail ++ (more ++ rest)) := by
      rw [start]
      exact trim_blanks_cons blank (by decide) _
    rw [List.append_assoc, List.append_assoc, Reader.members, opening]
    exact found _ gap rest (by simp only [List.length_append]; omega) blank

theorem checked_object {ts : List (List Char)} (each : ∀ t ∈ ts, Held depth t)
    (there : text ∈ Texts.object (fixed ts)) : Checked (depth + 1) text := by
  obtain ⟨inner, rfl, begins⟩ := begins_enclosed (by decide) (by decide) there
  obtain ⟨members, found⟩ := members_held each there
  refine ⟨.object members, begins, fun blanks rest blank _ => ?_⟩
  rw [List.cons_append, read.eq_def, trim_blanks_cons blank (by decide)]
  show (do let found ← Reader.members Reader.string (Json.read depth) (inner ++ rest)
           return (Json.object found.1, found.2)) = _
  rw [found]
  rfl

end Values

end Json

namespace Spelling

/-- Every text of the spelling is a value, with no more than so many arrays and objects inside one
another. -/
structure Checked (depth : Nat) (s : Spelling) : Prop where
  right : ∀ text ∈ s.right, Json.Checked depth text
  wrong : ∀ e, ∀ text ∈ s.wrong e, Json.Checked depth text

variable {depth : Nat} {text : List Char}

theorem checked_written {json : Json} (checked : Json.Checked depth json.chars) :
    (written json).Checked depth :=
  ⟨fun _ there => Set.mem_singleton_iff.1 there ▸ checked,
    fun _ text there => absurd there (Language.notMem_zero text)⟩

theorem checked_list {items : List Spelling} (each : ∀ s ∈ items, s.Checked depth) :
    (list items).Checked (depth + 1) := by
  have all : ∀ some ⊆ items, ∀ l ∈ some.map right, ∀ t ∈ l, Json.Checked depth t := by
    rintro some within l there
    obtain ⟨s, given, rfl⟩ := List.mem_map.1 there
    exact (each s (within given)).right
  refine ⟨fun text there => Json.checked_array (all items (fun _ h => h)) there, ?_⟩
  rintro e text ⟨before, s, after, rfl, there⟩
  refine Json.checked_array (fun l given => ?_) there
  rcases List.mem_append.1 given with first | later
  · exact all before (fun _ h => List.mem_append_left _ h) l first
  · rcases List.mem_cons.1 later with rfl | last
    · exact (each s (by simp)).wrong e
    · exact all after (fun _ h => by simp [h]) l last

/-- An object is a value if its members are. -/
theorem checked_objectOf {names : List String} {items : List (Option Field)}
    (each : ∀ f ∈ items.reduceOption, ∀ t ∈ f.value.right, Json.Checked depth t)
    (there : text ∈ objectOf names items) : Json.Checked (depth + 1) text := by
  obtain ⟨ts, members, there⟩ := exists_enclosed there
  refine Json.checked_object (forall_members members fun l given t within => ?_) there
  obtain ⟨item, listed, rfl⟩ := List.mem_map.1 given
  have held : ∀ {name : String} {value : Language Char}, t ∈ member name value →
      (∀ u ∈ value, Json.Checked depth u) → Json.Held depth t := by
    intro name value here checked
    obtain ⟨gap, gap', inner, blank, blank', inside, rfl⟩ := mem_member.1 here
    exact ⟨name, inner, checked inner inside,
      mem_member.2 ⟨gap, gap', inner, blank, blank', rfl, rfl⟩⟩
  cases item with
  | none =>
    obtain ⟨name, -, here⟩ := within
    exact held here fun u => Json.checked_scalar depth
  | some f => exact held within (each f (List.reduceOption_mem_iff.2 listed))

theorem checked_arrayOf {fields : List Field}
    (each : ∀ f ∈ fields, ∀ t ∈ f.value.right, Json.Checked depth t)
    (there : text ∈ arrayOf fields) : Json.Checked (depth + 1) text := by
  refine Json.checked_array (fun l given => ?_) there
  obtain ⟨f, listed, rfl⟩ := List.mem_map.1 given
  exact each f listed

/-- A record is a value if its members are, the right ones and those with a fault. -/
theorem checked_record {fields : List Field}
    (each : ∀ f ∈ fields, f.value.Checked depth ∧ ∀ t ∈ f.values, Json.Checked depth t) :
    (record fields).Checked (depth + 1) := by
  have right : ∀ f ∈ fields, ∀ t ∈ f.value.right, Json.Checked depth t :=
    fun f given => (each f given).1.right
  have spoilt : ∀ {before f after e}, fields = before ++ f :: after →
      ∀ g ∈ before ++ f.spoilt e :: after, ∀ t ∈ g.value.right, Json.Checked depth t := by
    rintro before f after e rfl g given
    rcases List.mem_cons.1 (List.perm_middle.subset given) with rfl | other
    · exact (each f (by simp)).1.wrong e
    · exact right g (List.perm_middle.symm.subset (List.mem_cons_of_mem _ other))
  constructor
  · rintro text (⟨items, left, all, -, there⟩ | there)
    · exact checked_objectOf (fun f given =>
        right f (all.subset (List.mem_append_left left given))) there
    · exact checked_arrayOf right there
  · intro e text fault
    cases fault with
    | @repeated _ kept left _ _ all may some twice order there =>
      have known : kept ⊆ fields := fun f given => all.subset (List.mem_append_left left given)
      refine checked_objectOf (fun f given => ?_) there
      rcases List.mem_append.1 (order.subset given) with first | second
      · exact right f (known first)
      · obtain ⟨g, member, rfl⟩ := List.mem_map.1 second
        exact (each g (known (twice member))).2
    | spoiltMember here there =>
      obtain ⟨items, left, all, -, there⟩ := there
      exact checked_objectOf (fun f given =>
        spoilt here f (all.subset (List.mem_append_left left given))) there
    | overlong some each' there =>
      refine Json.checked_array (fun l given => ?_) there
      rcases List.mem_append.1 given with first | later
      · obtain ⟨f, listed, rfl⟩ := List.mem_map.1 first
        exact right f listed
      · rcases each' l later with rfl | ⟨f, listed, rfl⟩
        · exact fun t => Json.checked_scalar depth
        · exact (each f listed).2
    | lacking here there =>
      refine checked_arrayOf (fun f given => right f ?_) there
      rw [here]
      exact List.perm_middle.symm.subset (List.mem_cons_of_mem _ given)
    | spoiltElement here there => exact checked_arrayOf (spoilt here) there

end Spelling
end SerialDispatch
