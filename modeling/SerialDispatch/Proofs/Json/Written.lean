import Mathlib.Data.List.Basic
import SerialDispatch.Json.Reader

/-!
# Reading what was written

A reader `Reads` a value from a text if it takes the value from the text and leaves what stands
behind it, for everything that may stand behind a value. Here this is shown for strings, for numbers
in digits and for arrays of what can be read.

A quoted text is read in two stages, so two facts make up the one about strings: every character
that is written gives one piece (`Quoted.pieces_flatMap`), and the pieces give back the characters
(`Quoted.text_pieces`).
-/
namespace SerialDispatch

namespace Quoted

/-- What a character becomes between quotes. -/
def piece (c : Char) : Piece :=
  if c = '"' ∨ c = '\\' ∨ c.toNat < 32 then .unit c.toNat else .plain c

/-- Two hexadecimal digits behind two zeros name a control character. -/
theorem unit_of_control : ∀ n < 32,
    unit? '0' '0' (Nat.digitChar (n / 16)) (Nat.digitChar (n % 16)) = some n := by
  decide

theorem pieces_unit {a b c d : Char} {u : Nat} (named : unit? a b c d = some u)
    (rest : List Char) : pieces? ('\\' :: 'u' :: a :: b :: c :: d :: rest) =
      (pieces? rest).map fun found => (.unit u :: found.1, found.2) := by
  rw [pieces?, named]
  cases pieces? rest <;> rfl

theorem pieces_short {e : Char} {u : Nat} (named : shortEscape? e = some u)
    (rest : List Char) : pieces? ('\\' :: e :: rest) =
      (pieces? rest).map fun found => (.unit u :: found.1, found.2) := by
  have other : e ≠ 'u' := by
    rintro rfl
    cases named
  rw [pieces?, named]
  · cases pieces? rest <;> rfl
  · rintro _ _ _ _ _ rfl
    exact absurd rfl other

theorem pieces_plain {c : Char} (quote : c ≠ '"') (backslash : c ≠ '\\') (rest : List Char) :
    pieces? (c :: rest) = (pieces? rest).map fun found => (.plain c :: found.1, found.2) := by
  rw [pieces?]
  · cases pieces? rest <;> rfl
  · exact quote
  · exact fun _ _ _ _ _ h => absurd h backslash
  · exact fun _ _ h => absurd h backslash

theorem pieces_quoteChar (c : Char) (rest : List Char) : pieces? (Json.quoteChar c ++ rest) =
    (pieces? rest).map fun found => (piece c :: found.1, found.2) := by
  unfold Json.quoteChar
  split
  · subst_vars
    exact pieces_short rfl rest
  split
  · subst_vars
    exact pieces_short rfl rest
  split
  · subst_vars
    exact pieces_short rfl rest
  split
  · subst_vars
    exact pieces_short rfl rest
  split
  · subst_vars
    exact pieces_short rfl rest
  split
  · subst_vars
    exact pieces_short rfl rest
  split
  · subst_vars
    exact pieces_short rfl rest
  split
  · rename_i control
    have unit : piece c = .unit c.toNat := if_pos (.inr (.inr control))
    rw [unit]
    exact pieces_unit (unit_of_control c.toNat control) rest
  · rename_i quote backslash _ _ _ _ _ control
    have plain : piece c = .plain c := if_neg (by simp [quote, backslash, control])
    rw [plain]
    exact pieces_plain quote backslash rest

/-- Characters that are written give one piece each, up to the quote behind them. -/
theorem pieces_flatMap (text rest : List Char) :
    pieces? (text.flatMap Json.quoteChar ++ '"' :: rest) = some (text.map piece, rest) := by
  induction text with
  | nil => rw [List.flatMap_nil, List.nil_append, pieces?]; rfl
  | cons c text ih =>
    rw [List.flatMap_cons, List.append_assoc, pieces_quoteChar, ih]
    rfl

/-- A unit that begins no pair stands for a character. -/
theorem text_unit {u : Nat} (lone : isLead u = false) (rest : List Piece) :
    text? (.unit u :: rest) = (do return (← unitChar? u) :: (← text? rest)) := by
  cases rest with
  | nil => simp only [text?]
  | cons next rest =>
    cases next with
    | plain c => simp only [text?]
    | unit v => rw [text?, lone, Bool.false_and]; rfl

/-- The pieces of characters give the characters back. -/
theorem text_pieces (text : List Char) : text? (text.map piece) = some text := by
  induction text with
  | nil => rfl
  | cons c text ih =>
    rw [List.map_cons, piece]
    split
    · rename_i escaped
      have small : c.toNat < 0x80 := by
        rcases escaped with rfl | rfl | control
        · decide
        · decide
        · omega
      have lead : isLead c.toNat = false := by simp [isLead]; omega
      have trail : isTrail c.toNat = false := by simp [isTrail]; omega
      have char : unitChar? c.toNat = some c := by
        simp [unitChar?, lead, trail, Char.ofNat_toNat]
      rw [text_unit lead, char, ih]
      rfl
    · rename_i plain
      have shown : ¬ c.toNat < 32 := fun control => plain (.inr (.inr control))
      rw [text?, if_neg shown, ih]
      rfl

end Quoted

namespace Reader

/-- What may stand behind a value. -/
def Ends (rest : List Char) : Prop :=
  ∀ c ∈ rest.head?, isBlank c = true ∨ c = ',' ∨ c = ']' ∨ c = '\x7d'

/-- The text stands for the value: what is read from it is the value, whatever stands behind. It
begins neither with a blank nor with the bracket that closes an array. -/
structure Reads {α : Type} (read : Reader α) (text : List Char) (a : α) : Prop where
  opens : ∃ c more, text = c :: more ∧ isBlank c = false ∧ c ≠ ']'
  takes : ∀ rest, Ends rest → read (text ++ rest) = .ok (a, rest)

variable {α β : Type} {read : Reader α} {text : List Char} {a : α}

theorem ends_nil : Ends [] := nofun

theorem ends_comma (rest : List Char) : Ends (',' :: rest) := by
  simp [Ends]

theorem ends_bracket (rest : List Char) : Ends (']' :: rest) := by
  simp [Ends]

theorem ends_brace (rest : List Char) : Ends ('\x7d' :: rest) := by
  simp [Ends]

/-- Before a character that is no blank there is nothing to trim. -/
theorem trim_cons {c : Char} (shown : isBlank c = false) (rest : List Char) :
    trim (c :: rest) = c :: rest := by
  simp [trim, shown]

theorem punctuation_cons {c : Char} (shown : isBlank c = false) (rest : List Char) :
    punctuation c (c :: rest) = .ok rest := by
  rw [punctuation, trim_cons shown]
  exact if_pos rfl

/-- A text that stands for a value is the text of that value as a whole. -/
theorem Reads.whole (reads : Reads read text a) : Reader.whole read text = .ok a := by
  have found := reads.takes [] ends_nil
  rw [List.append_nil] at found
  rw [Reader.whole, found]
  rfl

/-- What is made of a value can be read where the value can. -/
theorem Reads.map (reads : Reads read text a) (make : α → β) :
    Reads (fun cs => do let (a, rest) ← read cs; return (make a, rest)) text (make a) := by
  refine ⟨reads.opens, fun rest ends => ?_⟩
  rw [reads.takes rest ends]
  rfl

section Strings

theorem pieces_quoted (s : String) (rest : List Char) :
    pieces (Json.quoted s.toList ++ rest) = .ok (s.toList.map Quoted.piece, rest) := by
  have inner := Quoted.pieces_flatMap s.toList rest
  rw [pieces, Json.quoted, List.cons_append, List.cons_append, trim_cons (by decide),
    List.append_assoc]
  simp only [List.cons_append, List.nil_append, inner]

theorem string_quoted (s : String) (rest : List Char) :
    string (Json.quoted s.toList ++ rest) = .ok (s, rest) := by
  rw [string, pieces_quoted]
  simp [bind, Except.bind, Quoted.text_pieces, pure, Except.pure, String.ofList_toList]

theorem reads_string (s : String) : Reads string (Json.string s).chars s := by
  refine ⟨⟨'"', _, rfl, by decide, by decide⟩, fun rest _ => ?_⟩
  rw [Json.chars]
  exact string_quoted s rest

end Strings

section Numbers

theorem eq_zero_of_digitChar : ∀ n < 10, Nat.digitChar n = '0' → n = 0 := by decide

/-- A number is written without superfluous zeros in front. -/
theorem isWhole_toDigits (n : Nat) : isWhole (Nat.toDigits 10 n) = true := by
  -- The first digit is a zero only if it is the last one.
  have first : ∀ n, ∃ c more, Nat.toDigits 10 n = c :: more ∧ (c = '0' → n = 0) := by
    intro n
    induction n using Nat.strongRecOn with
    | ind n ih =>
      by_cases small : n < 10
      · exact ⟨n.digitChar, [], Nat.toDigits_of_lt_base small, eq_zero_of_digitChar n small⟩
      · obtain ⟨c, more, digits, zero⟩ := ih (n / 10) (by omega)
        refine ⟨c, more ++ [(n % 10).digitChar], ?_, fun h => ?_⟩
        · rw [Nat.toDigits_of_base_le (by decide) (by omega), digits]
          rfl
        · have := zero h
          omega
  obtain ⟨c, more, digits, zero⟩ := first n
  by_cases leading : c = '0'
  · rw [zero leading]
    rfl
  · rw [digits, isWhole]
    · nofun
    · rintro _ _ h
      exact leading (List.cons.inj h).1

/-- No character that a number may hold stands behind a value. -/
theorem Ends.outside {c : Char} {rest : List Char} (ends : Ends (c :: rest)) :
    Char.isDigit c = false ∧ (c ≠ '.' && c ≠ 'e' && c ≠ 'E') = true := by
  have may : isBlank c = true ∨ c = ',' ∨ c = ']' ∨ c = '\x7d' := ends c (by simp)
  rw [isBlank] at may
  simp only [Bool.or_eq_true, decide_eq_true_eq] at may
  rcases may with (((rfl | rfl) | rfl) | rfl) | rfl | rfl | rfl <;> decide

theorem Ends.takeWhile_digits {digits rest : List Char} (ends : Ends rest)
    (all : ∀ c ∈ digits, Char.isDigit c = true) :
    (digits ++ rest).takeWhile Char.isDigit = digits ∧
    (digits ++ rest).dropWhile Char.isDigit = rest := by
  rw [List.takeWhile_append_of_pos all, List.dropWhile_append_of_pos all]
  cases rest with
  | nil => simp
  | cons c rest => simp [ends.outside.1]

theorem reads_natural {n bound : Nat} (below : n < bound) :
    Reads (natural bound) (Json.nat n).chars n := by
  have digits : (Json.nat n).chars = Nat.toDigits 10 n := by rw [Json.nat, Json.chars]; rfl
  have all : ∀ c ∈ Nat.toDigits 10 n, Char.isDigit c = true := fun c h =>
    Nat.isDigit_of_mem_toDigits (by decide) (by decide) h
  obtain ⟨c, more, first⟩ := List.exists_cons_of_ne_nil (Nat.toDigits_ne_nil (n := n) (b := 10))
  have opening : isBlank c = false ∧ c ≠ ']' := by
    have digit : Char.isDigit c = true := all c (by simp [first])
    constructor
    · by_contra blank
      have blank : isBlank c = true := by simpa using blank
      simp only [isBlank, Bool.or_eq_true, decide_eq_true_eq] at blank
      rcases blank with ((rfl | rfl) | rfl) | rfl <;> exact absurd digit (by decide)
    · rintro rfl
      exact absurd digit (by decide)
  rw [digits]
  refine ⟨⟨c, more, first, opening.1, opening.2⟩, fun rest ends => ?_⟩
  obtain ⟨taken, dropped⟩ := ends.takeWhile_digits all
  have shown : trim (Nat.toDigits 10 n ++ rest) = Nat.toDigits 10 n ++ rest := by
    rw [first, List.cons_append, trim_cons opening.1]
  have value : Nat.ofDigitChars 10 (Nat.toDigits 10 n) 0 = n := Nat.ofDigitChars_ten_toDigits
  simp only [natural, shown, taken, dropped, value, isWhole_toDigits, Bool.true_and]
  cases rest with
  | nil => exact if_pos (by simpa using below)
  | cons c rest =>
    have ended := ends.outside.2
    exact if_pos (by simpa using ⟨by simpa using ended, below⟩)

theorem reads_byte (b : UInt8) : Reads byte (Json.nat b.toNat).chars b := by
  have reads := (reads_natural b.toNat_lt).map UInt8.ofNat
  rwa [UInt8.ofNat_toNat] at reads

theorem reads_word64 (n : UInt64) : Reads word64 (Json.nat n.toNat).chars n := by
  have reads := (reads_natural n.toNat_lt).map UInt64.ofNat
  rwa [UInt64.ofNat_toNat] at reads

end Numbers

section Lists

theorem moreItems_cons (item : Json) (rest : List Json) :
    Json.moreItems (item :: rest) = ',' :: Json.itemsChars (item :: rest) := by
  rw [Json.moreItems, Json.itemsChars]
  rfl

/-- Items are read one after the other, the last one up to the closing bracket. -/
theorem itemsFrom_chars {item : Reader α} {write : α → Json} (a : α) (items : List α)
    (reads : ∀ b ∈ a :: items, Reads item (write b).chars b) (n : Nat)
    (enough : items.length < n) (rest : List Char) :
    itemsFrom item n (Json.itemsChars ((a :: items).map write) ++ ']' :: rest) =
      .ok (a :: items, rest) := by
  induction items generalizing a n with
  | nil =>
    obtain ⟨n, rfl⟩ : ∃ m, n = m + 1 := ⟨n - 1, by simp at enough; omega⟩
    have first := (reads a List.mem_cons_self).takes (']' :: rest) (ends_bracket rest)
    rw [itemsFrom, List.map_cons, List.map_nil, Json.itemsChars, Json.moreItems, List.append_nil,
      first]
    rfl
  | cons b items ih =>
    obtain ⟨n, rfl⟩ : ∃ m, n = m + 1 := ⟨n - 1, by simp at enough; omega⟩
    have others := ih b (fun c h => reads c (List.mem_cons_of_mem _ h)) n
      (by simp at enough; omega)
    rw [List.map_cons, Json.itemsChars, List.append_assoc, List.map_cons, moreItems_cons,
      ← List.map_cons, List.cons_append, itemsFrom,
      (reads a List.mem_cons_self).takes _ (ends_comma _)]
    simp only [bind, Except.bind, trim_cons (show isBlank ',' = false by decide), others]
    rfl

theorem length_lt_itemsChars {item : Reader α} {write : α → Json} (a : α) (items : List α)
    (reads : ∀ b ∈ a :: items, Reads item (write b).chars b) :
    items.length < (Json.itemsChars ((a :: items).map write)).length := by
  induction items generalizing a with
  | nil =>
    obtain ⟨c, more, text, -⟩ := (reads a List.mem_cons_self).opens
    rw [List.map_cons, Json.itemsChars, text]
    simp
  | cons b items ih =>
    have others := ih b fun c h => reads c (List.mem_cons_of_mem _ h)
    rw [List.map_cons, Json.itemsChars, List.map_cons, moreItems_cons, ← List.map_cons]
    simp only [List.length_append, List.length_cons]
    omega

/-- A list can be read where its items can. -/
theorem reads_list {item : Reader α} {write : α → Json} {items : List α}
    (reads : ∀ a ∈ items, Reads item (write a).chars a) :
    Reads (list item) (Json.ofList write items).chars items := by
  refine ⟨⟨'[', Json.itemsChars (items.map write) ++ [']'], by rw [Json.ofList, Json.chars]; rfl,
    by decide, by decide⟩, fun rest _ => ?_⟩
  have text : (Json.ofList write items).chars ++ rest =
      '[' :: (Json.itemsChars (items.map write) ++ ']' :: rest) := by
    rw [Json.ofList, Json.chars]
    simp
  rw [text, list, punctuation_cons (by decide)]
  simp only [bind, Except.bind]
  cases items with
  | nil => rfl
  | cons a items =>
    obtain ⟨c, more, first, shown, open_⟩ := (reads a List.mem_cons_self).opens
    have whole := itemsFrom_chars a items reads
      (Json.itemsChars ((a :: items).map write) ++ ']' :: rest).length
      (by
        have := length_lt_itemsChars a items reads
        rw [List.length_append]
        omega) rest
    have start : ∃ more, Json.itemsChars ((a :: items).map write) ++ ']' :: rest = c :: more := by
      rw [List.map_cons, Json.itemsChars, first]
      exact ⟨_, rfl⟩
    obtain ⟨more, start⟩ := start
    rw [Reader.items, start, trim_cons shown, ← start]
    split
    · rename_i bracket
      rw [start] at bracket
      exact absurd (List.cons.inj bracket).1 open_
    · exact whole

end Lists
end Reader
end SerialDispatch
