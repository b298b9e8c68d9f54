import Mathlib.Data.Nat.Digits.Defs
import SerialDispatch.Result

/-!
# What the messages of failures tell

The message of a failure begins with words that tell what sort of failure it is, and no such words
are the beginning of others: the first two characters are enough. Behind them stands all that the
failure holds, so that two failures have the same message just if they are the same, whatever texts
they hold. A key id stands there in sixteen hexadecimal digits, which spell it. Main statement:
`Failure.messages_unambiguous`.
-/
namespace SerialDispatch

namespace Hexadecimal

/-- The digits, each at the place of its value. -/
def alphabet : List Char :=
  ['0', '1', '2', '3', '4', '5', '6', '7', '8', '9', 'a', 'b', 'c', 'd', 'e', 'f']

/-- The value of a row of digits, the first the most significant. -/
def value (row : List Char) : Nat := row.foldl (fun n c => 16 * n + alphabet.idxOf c) 0

/-- The row is this number in so many digits. -/
structure Spells (row : List Char) (width n : Nat) : Prop where
  length : row.length = width
  digits : ∀ c ∈ row, c ∈ alphabet
  reads : value row = n

namespace Spells

variable {row : List Char} {width n : Nat}

theorem nil : Spells [] 0 0 := ⟨rfl, by simp, rfl⟩

/-- A digit behind the others makes them worth sixteen times as much. -/
theorem snoc (spells : Spells row width n) {d : Nat} (small : d < 16) :
    Spells (row ++ [Nat.digitChar d]) (width + 1) (16 * n + d) where
  length := by rw [List.length_append, spells.length, List.length_singleton]
  digits := by
    have known : ∀ d < 16, Nat.digitChar d ∈ alphabet := by decide
    intro c there
    rcases List.mem_append.1 there with before | last
    · exact spells.digits c before
    · rw [List.mem_singleton.1 last]
      exact known d small
  reads := by
    have place : ∀ d < 16, alphabet.idxOf (Nat.digitChar d) = d := by decide
    have before := spells.reads
    rw [value] at before ⊢
    rw [List.foldl_append, before, List.foldl_cons, List.foldl_nil, place d small]

/-- Zeros in front say nothing. -/
theorem zeros (spells : Spells row width n) (k : Nat) :
    Spells (List.replicate k '0' ++ row) (k + width) n where
  length := by rw [List.length_append, spells.length, List.length_replicate]
  digits := by
    intro c there
    rcases List.mem_append.1 there with zero | there
    · rw [List.eq_of_mem_replicate zero]
      decide
    · exact spells.digits c there
  reads := by
    induction k with
    | zero => exact spells.reads
    -- a zero leaves the fold where it began
    | succ k ih => exact ih

end Spells

/-- The digits of a number spell it: those of its sixteenth part, and one behind them. -/
theorem spells_toDigits (n : Nat) : ∃ width, Spells (Nat.toDigits 16 n) width n := by
  induction n using Nat.strong_induction_on with
  | h n ih =>
    by_cases small : n < 16
    · have only := Spells.nil.snoc small
      rw [List.nil_append, Nat.mul_zero, Nat.zero_add n] at only
      rw [Nat.toDigits_of_lt_base small]
      exact ⟨_, only⟩
    · obtain ⟨width, before⟩ := ih (n / 16) (Nat.div_lt_self (by omega) (by decide))
      have whole := before.snoc (Nat.mod_lt n (by decide))
      rw [Nat.div_add_mod] at whole
      rw [Nat.toDigits_of_base_le (by decide) (Nat.le_of_not_lt small)]
      exact ⟨_, whole⟩

/-- The digits of a number, filled up with zeros to sixteen. -/
def padded (n : Nat) : List Char :=
  List.replicate (16 - (Nat.toDigits 16 n).length) '0' ++ Nat.toDigits 16 n

/-- Sixteen digits are enough for a word. -/
theorem spells_padded (n : UInt64) : Spells (padded n.toNat) 16 n.toNat := by
  obtain ⟨width, spells⟩ := spells_toDigits n.toNat
  have room : width ≤ 16 := by
    rw [← spells.length]
    exact Nat.toDigits_length 16 n.toNat 16 (by decide) n.toNat_lt
  have filled := spells.zeros (16 - width)
  rwa [Nat.sub_add_cancel room, ← spells.length] at filled

end Hexadecimal

namespace Failure

/-- The words with which a message begins, the same for every failure of this sort. -/
def front : Failure → String
  | .badPassphrase => "bad passphrase"
  | .keyNotFound _ => "key 0x"
  | .repository _ => "repository error: "
  | .io _ => "i/o error: "
  | .internal _ => "internal error: "

/-- What a message says behind these words. -/
def details : Failure → String
  | .badPassphrase => ""
  | .keyNotFound id => String.ofList (Hexadecimal.padded id.toNat) ++ " not found"
  | .repository message | .io message | .internal message => message

theorem message_eq (f : Failure) : f.message = f.front ++ f.details := by
  cases f with
  | badPassphrase => rfl
  | keyNotFound id =>
    have words : "key 0x" = "key " ++ "0x" := by decide
    have digits : paddedHex id = "0x" ++ String.ofList (Hexadecimal.padded id.toNat) := rfl
    calc (keyNotFound id).message = "key " ++ paddedHex id ++ " not found" := rfl
      _ = "key 0x" ++ (String.ofList (Hexadecimal.padded id.toNat) ++ " not found") := by
        rw [digits, words]
        simp only [String.append_assoc]
  | repository message | io message | internal message => rfl

variable {f g : Failure}

/-- The first two characters tell with which words a message begins. -/
theorem front_eq (same : f.message = g.message) : f.front = g.front := by
  have start : ∀ f : Failure, f.message.toList.take 2 = f.front.toList.take 2 := by
    intro f
    have long : 2 ≤ f.front.toList.length := by cases f <;> simp [front]
    rw [message_eq, String.toList_append, List.take_append_of_le_length long]
  have two : f.front.toList.take 2 = g.front.toList.take 2 := by rw [← start, same, start]
  cases f <;> cases g <;> simp [front] at two ⊢

/-- Nothing that a failure holds is missing in its message. -/
theorem eq_of_details_eq (fronts : f.front = g.front) (same : f.details = g.details) : f = g := by
  -- failures of two sorts have different fronts
  cases f <;> cases g <;> simp only [front, String.reduceEq] at fronts
  case badPassphrase.badPassphrase => rfl
  case keyNotFound.keyNotFound id id' =>
    have digits := String.ofList_injective ((String.append_left_inj _).1 same)
    have numbers : id.toNat = id'.toNat := by
      rw [← (Hexadecimal.spells_padded id).reads, digits, (Hexadecimal.spells_padded id').reads]
    rw [UInt64.toNat_inj.1 numbers]
  case repository.repository message message' => exact congrArg repository same
  case io.io message message' => exact congrArg io same
  case internal.internal message message' => exact congrArg internal same

theorem message_inj (same : f.message = g.message) : f = g := by
  have fronts := front_eq same
  rw [message_eq, message_eq, fronts] at same
  exact eq_of_details_eq fronts ((String.append_right_inj _).1 same)

/-- Two failures have the same message just if they are the same, and the message about a key that
is not found spells its id in sixteen hexadecimal digits. -/
theorem messages_unambiguous :
    (∀ f g : Failure, f.message = g.message ↔ f = g) ∧
    ∀ id : UInt64, ∃ digits : List Char,
      (keyNotFound id).message = "key 0x" ++ String.ofList digits ++ " not found" ∧
      Hexadecimal.Spells digits 16 id.toNat := by
  refine ⟨fun f g => ⟨message_inj, congrArg message⟩, fun id => ?_⟩
  refine ⟨_, ?_, Hexadecimal.spells_padded id⟩
  rw [message_eq, String.append_assoc]
  rfl

example : (keyNotFound 0xabcd).message = "key 0x000000000000abcd not found" := by decide

end Failure
end SerialDispatch
