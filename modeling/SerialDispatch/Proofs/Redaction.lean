import Mathlib.Data.List.Basic
import SerialDispatch.Request

/-!
# What the description of an input reveals

A description of an input shows whether there is a passphrase, how many entries the data has, and
the time, and nothing else: two inputs have the same description just if they agree in these three.
That they agree can be read off because a member that is absent begins with another character than
one that is there, and because a number ends where its digits do. Main statement:
`CryptoInput.descriptions_reveal`.
-/
namespace SerialDispatch.CryptoInput

section Numbers

/-- A text that begins with no digit. -/
def Stops (text : List Char) : Prop := ∃ c more, text = c :: more ∧ c.isDigit = false

theorem Stops.append {text : List Char} (stops : Stops text) (rest : List Char) :
    Stops (text ++ rest) := by
  obtain ⟨c, more, rfl, other⟩ := stops
  exact ⟨c, more ++ rest, rfl, other⟩

theorem takeWhile_toDigits (n : Nat) {text : List Char} (stops : Stops text) :
    (Nat.toDigits 10 n ++ text).takeWhile Char.isDigit = Nat.toDigits 10 n := by
  obtain ⟨c, more, rfl, other⟩ := stops
  have all : ∀ d ∈ Nat.toDigits 10 n, Char.isDigit d = true := fun d there =>
    Nat.isDigit_of_mem_toDigits (by decide) (by decide) there
  rw [List.takeWhile_append_of_pos all, List.takeWhile_cons_of_neg (by simp [other]),
    List.append_nil]

/-- A number can be told from what stands behind it. -/
theorem toDigits_append_inj {n m : Nat} {text text' : List Char} (stops : Stops text)
    (stops' : Stops text') (same : Nat.toDigits 10 n ++ text = Nat.toDigits 10 m ++ text') :
    n = m ∧ text = text' := by
  have digits : Nat.toDigits 10 n = Nat.toDigits 10 m := by
    rw [← takeWhile_toDigits n stops, same, takeWhile_toDigits m stops']
  refine ⟨?_, List.append_cancel_left (digits ▸ same)⟩
  rw [← Nat.ofDigitChars_ten_toDigits (n := n), digits, Nat.ofDigitChars_ten_toDigits]

end Numbers

/-- What stands around the members in a description, and how one that may be absent is shown. -/
structure Style where
  front : String
  option : Option String → String
  second : String
  third : String
  back : String

namespace Style

def text (l : Style) (c : CryptoInput) : String :=
  l.front ++ l.option (c.passphrase.map fun _ => redacted) ++ l.second ++
    toString c.cryptoData.size ++ l.third ++
    l.option (c.signatureTime.map fun t => toString t.toNat) ++ l.back

def line : Style :=
  ⟨"CryptoInput \x7b passphrase: ", optionLine, ", crypto_data: ", ", signature_time_millis: ",
    " \x7d"⟩

def nested : Style :=
  ⟨"CryptoInput \x7b\n    passphrase: ", optionNested, ",\n    crypto_data: ",
    ",\n    signature_time_millis: ", ",\n\x7d"⟩

theorem describe_eq (c : CryptoInput) : c.describe = line.text c := by
  refine String.toList_injective ?_
  simp [describe, shownMembers, text, line]

theorem describeNested_eq (c : CryptoInput) : c.describeNested = nested.text c := by
  refine String.toList_injective ?_
  simp [describeNested, shownMembers, text, nested]

/-- What is shown can be read off. -/
structure Legible (l : Style) : Prop where
  absent : ∃ word, (l.option none).toList = 'N' :: word
  present : ∃ opening closing, Stops closing ∧
    ∀ shown, (l.option (some shown)).toList = 'S' :: (opening ++ (shown.toList ++ closing))
  third : Stops l.third.toList

theorem legible_line : line.Legible where
  absent := ⟨_, rfl⟩
  present := ⟨"ome(".toList, [')'], ⟨_, _, rfl, by decide⟩, fun shown => by simp [line, optionLine]⟩
  third := ⟨',', _, rfl, by decide⟩

theorem legible_nested : nested.Legible where
  absent := ⟨_, rfl⟩
  present := ⟨"ome(\n        ".toList, ",\n    )".toList, ⟨',', _, rfl, by decide⟩,
    fun shown => by simp [nested, optionNested]⟩
  third := ⟨',', _, rfl, by decide⟩

end Style

/-- The inputs agree in what is shown of them. -/
def SameFacts (a b : CryptoInput) : Prop :=
  a.passphrase.isSome = b.passphrase.isSome ∧ a.cryptoData.size = b.cryptoData.size ∧
    a.signatureTime = b.signatureTime

namespace Style

variable {l : Style} {a b : CryptoInput} {more more' : List Char}

/-- Whether something is there is told by the first character. -/
theorem Legible.isSome_eq (legible : l.Legible) {p q : Option String}
    (same : (l.option p).toList ++ more = (l.option q).toList ++ more') : p.isSome = q.isSome := by
  obtain ⟨word, absent⟩ := legible.absent
  obtain ⟨opening, closing, -, present⟩ := legible.present
  cases p <;> cases q
  · rfl
  · simp [absent, present] at same
  · simp [absent, present] at same
  · rfl

/-- Every passphrase is shown alike. -/
theorem redacted_eq {p q : Option String} (same : p.isSome = q.isSome) :
    p.map (fun _ => redacted) = q.map fun _ => redacted := by
  cases p <;> cases q <;> simp at same ⊢

theorem Legible.time_eq (legible : l.Legible) {t u : Option UInt64}
    (same : (l.option (t.map fun t => toString t.toNat)).toList ++ more =
      (l.option (u.map fun t => toString t.toNat)).toList ++ more') : t = u := by
  have both : t.isSome = u.isSome := by simpa only [Option.isSome_map] using legible.isSome_eq same
  obtain ⟨opening, closing, stops, present⟩ := legible.present
  cases t with
  | none => exact (Option.isNone_iff_eq_none.1 (Option.isSome_eq_false_iff.1 both.symm)).symm
  | some t =>
    obtain ⟨u, rfl⟩ := Option.isSome_iff_exists.1 both.symm
    simp only [Option.map_some, present, List.cons_append, List.append_assoc, Nat.toString_eq_repr,
      Nat.toList_repr] at same
    have digits := List.append_cancel_left (List.cons.inj same).2
    rw [UInt64.toNat_inj.1 (toDigits_append_inj (stops.append _) (stops.append _) digits).1]

/-- The members are read off one after the other. -/
theorem Legible.text_eq_iff (legible : l.Legible) : l.text a = l.text b ↔ SameFacts a b := by
  constructor
  · intro same
    have chars := congrArg String.toList same
    simp only [text, String.toList_append, List.append_assoc, Nat.toString_eq_repr,
      Nat.toList_repr] at chars
    have first := List.append_cancel_left chars
    have passphrase : a.passphrase.isSome = b.passphrase.isSome := by
      simpa using legible.isSome_eq first
    rw [redacted_eq passphrase] at first
    have second := List.append_cancel_left (List.append_cancel_left first)
    obtain ⟨size, third⟩ :=
      toDigits_append_inj (legible.third.append _) (legible.third.append _) second
    exact ⟨passphrase, size, legible.time_eq (List.append_cancel_left third)⟩
  · rintro ⟨passphrase, size, time⟩
    rw [text, text, redacted_eq passphrase, size, time]

end Style

/-- Two inputs have the same description, in one line or in several, just if they agree in whether
there is a passphrase, in the number of their entries and in the time. -/
theorem descriptions_reveal (a b : CryptoInput) :
    (a.describe = b.describe ↔ SameFacts a b) ∧
    (a.describeNested = b.describeNested ↔ SameFacts a b) := by
  rw [Style.describe_eq, Style.describe_eq, Style.describeNested_eq, Style.describeNested_eq]
  exact ⟨Style.legible_line.text_eq_iff, Style.legible_nested.text_eq_iff⟩

end SerialDispatch.CryptoInput
