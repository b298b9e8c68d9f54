import Mathlib.Data.List.DropRight
import SerialDispatch.Proofs.Json.Written

/-!
# Reading between blanks

A text `Yields` an outcome, a value or a problem, if a reader comes to this outcome wherever the
text stands: behind any blanks, and before everything that may stand behind a value. What is
written yields its value, since every reader begins by passing over blanks; and a text that begins
with a character that no value of a reader begins with is malformed.
-/
namespace SerialDispatch.Reader

variable {α β : Type} {read : Reader α} {text : List Char}

section Blanks

/-- Nothing but blanks. -/
def AllBlank (cs : List Char) : Prop := ∀ c ∈ cs, isBlank c = true

theorem allBlank_nil : AllBlank [] := nofun

variable {blanks : List Char} (blank : AllBlank blanks)

include blank in
theorem trim_blanks (rest : List Char) : trim (blanks ++ rest) = trim rest :=
  List.dropWhile_append_of_pos blank

include blank in
/-- Blanks before a character that is none are passed over. -/
theorem trim_blanks_cons {c : Char} (shown : isBlank c = false) (rest : List Char) :
    trim (blanks ++ c :: rest) = c :: rest := by
  rw [trim_blanks blank, trim_cons shown]

include blank in
theorem punctuation_blanks {c : Char} (shown : isBlank c = false) (rest : List Char) :
    punctuation c (blanks ++ c :: rest) = .ok rest := by
  rw [punctuation, trim_blanks_cons blank shown]
  exact if_pos rfl

include blank in
/-- Another character stands where this one is wanted. -/
theorem punctuation_blanks_of_ne {c d : Char} (shown : isBlank d = false) (other : d ≠ c)
    (rest : List Char) : punctuation c (blanks ++ d :: rest) = .error .malformed := by
  rw [punctuation, trim_blanks_cons blank shown]
  exact if_neg other

end Blanks

/-- A text that begins neither with a blank nor with the bracket that closes an array. -/
def Begins (text : List Char) : Prop := ∃ c more, text = c :: more ∧ isBlank c = false ∧ c ≠ ']'

/-- What comes of reading the text, whatever stands around it. -/
structure Yields (read : Reader α) (text : List Char) (outcome : Except DecodeError α) : Prop where
  begins : Begins text
  gives : ∀ blanks rest, AllBlank blanks → Ends rest →
    read (blanks ++ (text ++ rest)) = outcome.map fun a => (a, rest)

/-- The reader begins by passing over blanks. -/
def Trims (read : Reader α) : Prop := ∀ cs, read (trim cs) = read cs

theorem trim_trim (cs : List Char) : trim (trim cs) = trim cs := List.dropWhile_idempotent _ cs

theorem Trims.blanks (trims : Trims read) {blanks : List Char} (blank : AllBlank blanks)
    (cs : List Char) : read (blanks ++ cs) = read cs := by
  rw [← trims, trim_blanks blank, trims]

theorem Reads.yields {a : α} (reads : Reads read text a) (trims : Trims read) :
    Yields read text (.ok a) := by
  refine ⟨reads.opens, fun blanks rest blank ends => ?_⟩
  rw [trims.blanks blank, reads.takes rest ends]
  rfl

/-- What is made of a value comes of the text where the value does. -/
theorem Yields.map {outcome : Except DecodeError α} (yields : Yields read text outcome)
    (make : α → β) : Yields (fun cs => do let (a, rest) ← read cs; return (make a, rest)) text
      (outcome.map make) := by
  refine ⟨yields.begins, fun blanks rest blank ends => ?_⟩
  rw [yields.gives blanks rest blank ends]
  cases outcome <;> rfl

/-- A text that yields an outcome comes to it as a whole, with blanks around it. -/
theorem Yields.whole {outcome : Except DecodeError α} (yields : Yields read text outcome)
    {before behind : List Char} (blank : AllBlank before) (blank' : AllBlank behind) :
    Reader.whole read (before ++ (text ++ behind)) = outcome := by
  have ends : Ends behind := fun c h => .inl (blank' c (List.mem_of_mem_head? h))
  have nothing : trim behind = [] := List.dropWhile_eq_nil_iff.2 blank'
  rw [Reader.whole, yields.gives before behind blank ends]
  cases outcome with
  | error e => rfl
  | ok a =>
    simp only [Except.map, bind, Except.bind, nothing, if_true]
    rfl

section Trimming

theorem trims_pieces : Trims pieces := fun cs => by simp only [pieces, trim_trim]

theorem trims_string : Trims string := fun cs => by simp only [string, trims_pieces cs]

theorem trims_null : Trims null := fun cs => by simp only [null, trim_trim]

theorem trims_natural (bound : Nat) : Trims (natural bound) := fun cs => by
  simp only [natural, trim_trim]

theorem trims_byte : Trims byte := fun cs => by simp only [byte, trims_natural _ cs]

theorem trims_word64 : Trims word64 := fun cs => by simp only [word64, trims_natural _ cs]

end Trimming

theorem yields_string (s : String) : Yields string (Json.string s).chars (.ok s) :=
  (reads_string s).yields trims_string

theorem yields_byte (b : UInt8) : Yields byte (Json.nat b.toNat).chars (.ok b) :=
  (reads_byte b).yields trims_byte

theorem yields_word64 (n : UInt64) : Yields word64 (Json.nat n.toNat).chars (.ok n) :=
  (reads_word64 n).yields trims_word64

theorem yields_null : Yields null Json.null.chars (.ok ()) := by
  have begins : Begins Json.null.chars := ⟨'n', _, by rw [Json.chars], by decide, by decide⟩
  have reads : Reads null Json.null.chars () := ⟨begins, fun rest _ => by
    rw [Json.chars, null, List.cons_append, trim_cons (by decide)]
    rfl⟩
  exact reads.yields trims_null

section Optional

theorem yields_none : Yields (optional read) Json.null.chars (.ok none) := by
  refine ⟨yields_null.begins, fun blanks rest blank ends => ?_⟩
  have found := yields_null.gives blanks rest blank ends
  have shown : trim (blanks ++ (Json.null.chars ++ rest)) = 'n' :: (['u', 'l', 'l'] ++ rest) := by
    rw [Json.chars]
    exact trim_blanks_cons blank (by decide) _
  rw [optional, shown]
  simp only [found]
  rfl

/-- A text of a value that does not begin like `null`. -/
theorem Yields.some {a : α} (yields : Yields read text (.ok a)) (other : text.head? ≠ some 'n') :
    Yields (optional read) text (.ok (some a)) := by
  refine ⟨yields.begins, fun blanks rest blank ends => ?_⟩
  obtain ⟨c, more, rfl, shown, -⟩ := yields.begins
  have found := yields.gives blanks rest blank ends
  have first : trim (blanks ++ (c :: more ++ rest)) = c :: (more ++ rest) :=
    trim_blanks_cons blank shown _
  rw [optional, first]
  split
  · rename_i same
    exact absurd (congrArg some (List.cons.inj same).1) other
  · rw [found]
    rfl

end Optional

section Openings

/-- A text that begins with another character than these is malformed. -/
def OpensWith (read : Reader α) (opening : Char → Bool) : Prop :=
  ∀ blanks c more, AllBlank blanks → isBlank c = false → opening c = false →
    read (blanks ++ c :: more) = .error .malformed

variable {opening : Char → Bool}

theorem OpensWith.yields (opens : OpensWith read opening) (begins : Begins text)
    (foreign : ∀ c ∈ text.head?, opening c = false) : Yields read text (.error .malformed) := by
  refine ⟨begins, fun blanks rest blank _ => ?_⟩
  obtain ⟨c, more, rfl, shown, -⟩ := begins
  exact opens blanks c (more ++ rest) blank shown (foreign c rfl)

theorem OpensWith.map (opens : OpensWith read opening) (make : α → β) :
    OpensWith (fun cs => do let (a, rest) ← read cs; return (make a, rest)) opening := by
  intro blanks c more blank shown foreign
  simp only [opens blanks c more blank shown foreign]
  rfl

theorem opensWith_pieces : OpensWith pieces (· = '"') := by
  intro blanks c more blank shown foreign
  rw [pieces, trim_blanks_cons blank shown]
  split
  · rename_i same
    exact absurd (List.cons.inj same).1 (of_decide_eq_false foreign)
  · rfl

theorem opensWith_string : OpensWith string (· = '"') := by
  intro blanks c more blank shown foreign
  rw [string, opensWith_pieces blanks c more blank shown foreign]
  rfl

theorem opensWith_list (item : Reader α) : OpensWith (list item) (· = '[') := by
  intro blanks c more blank shown foreign
  rw [list, punctuation_blanks_of_ne blank shown (of_decide_eq_false foreign)]
  rfl

theorem opensWith_optional (opens : OpensWith read opening) :
    OpensWith (optional read) fun c => c = 'n' || opening c := by
  intro blanks c more blank shown foreign
  rw [Bool.or_eq_false_iff] at foreign
  rw [optional, trim_blanks_cons blank shown]
  split
  · rename_i same
    exact absurd (List.cons.inj same).1 (of_decide_eq_false foreign.1)
  · rw [opens blanks c more blank shown foreign.2]
    rfl

theorem opensWith_natural (bound : Nat) : OpensWith (natural bound) Char.isDigit := by
  intro blanks c more blank shown foreign
  simp only [natural, trim_blanks_cons blank shown, List.takeWhile_cons, foreign]
  rfl

end Openings
end SerialDispatch.Reader
