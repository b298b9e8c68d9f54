import Mathlib.Data.List.DropRight
import Mathlib.Data.List.Induction
import Mathlib.Tactic.Ring
import SerialDispatch.Simulation.KeyId

/-!
# The key ids that bytes spell

Pushing a word up by eight bits and putting a byte into the room multiplies it by 256 and adds the
byte, as far as a word goes. So bytes spell their value, cut to a word, which is the value of the
last eight of them, and the eight bytes of a word spell the word, whatever stands before them; main
statements: `Bytes.keyId_eq`, `Bytes.value_mod`, `Bytes.keyId_append_ofWord`.
-/
namespace SerialDispatch.Bytes

@[simp] theorem value_cons (b : UInt8) (rest : Bytes) :
    value (b :: rest) = b.toNat * 256 ^ rest.length + value rest := rfl

/-- Bytes in front are worth their value, pushed up by those behind them. -/
theorem value_append (before last : Bytes) :
    value (before ++ last) = value before * 256 ^ last.length + value last := by
  induction before with
  | nil =>
    have nothing : value [] = 0 := rfl
    rw [List.nil_append, nothing, Nat.zero_mul, Nat.zero_add]
  | cons b rest ih =>
    rw [List.cons_append, value_cons, ih, value_cons, List.length_append, pow_add]
    ring

theorem value_append_singleton (data : Bytes) (b : UInt8) :
    value (data ++ [b]) = value data * 256 + b.toNat := by
  have last : value [b] = b.toNat := by
    rw [value_cons, List.length_nil, pow_zero, Nat.mul_one]
    rfl
  rw [value_append, last, List.length_singleton, pow_one]

theorem value_lt (data : Bytes) : value data < 256 ^ data.length := by
  induction data with
  | nil => decide
  | cons b rest ih =>
    have small : b.toNat + 1 ≤ 256 := b.toNat_lt
    calc value (b :: rest) = b.toNat * 256 ^ rest.length + value rest := rfl
      _ < (b.toNat + 1) * 256 ^ rest.length := by
        rw [Nat.succ_mul]
        exact Nat.add_lt_add_left ih _
      _ ≤ 256 * 256 ^ rest.length := Nat.mul_le_mul_right _ small
      _ = 256 ^ (b :: rest).length := (pow_succ' 256 rest.length).symm

/-- What is left of a value of which the upper bytes are cut off is that of the last ones. -/
theorem value_mod (data : Bytes) (width : Nat) :
    value data % 256 ^ width = value (data.rtake width) := by
  by_cases enough : width ≤ data.length
  · have parts : data.take (data.length - width) ++ data.rtake width = data :=
      List.take_append_drop _ _
    have length : (data.rtake width).length = width := by
      rw [List.rtake, List.length_drop, Nat.sub_sub_self enough]
    have least := value_lt (data.rtake width)
    rw [length] at least
    have whole := value_append (data.take (data.length - width)) (data.rtake width)
    rw [parts, length] at whole
    rw [whole, Nat.mul_add_mod_of_lt least]
  · have few : data.length ≤ width := Nat.le_of_not_le enough
    have all : data.rtake width = data := by
      rw [List.rtake, Nat.sub_eq_zero_of_le few, List.drop_zero]
    rw [all]
    exact Nat.mod_eq_of_lt ((value_lt data).trans_le (Nat.pow_le_pow_right (by decide) few))

/-- A byte fills the room that is left when a word is pushed up. -/
theorem toNat_push (id : UInt64) (b : UInt8) :
    ((id <<< 8) ||| b.toUInt64).toNat = (id.toNat * 256 + b.toNat) % 2 ^ 64 := by
  have low : b.toNat < 2 ^ 8 := b.toNat_lt
  have cut : id.toNat * 2 ^ 8 % 2 ^ 64 = 2 ^ 8 * (id.toNat % 2 ^ 56) := by
    omega
  have pushed : (id <<< 8).toNat = 2 ^ 8 * (id.toNat % 2 ^ 56) := by
    rw [UInt64.toNat_shiftLeft, ← cut, Nat.shiftLeft_eq]
    rfl
  rw [UInt64.toNat_or, pushed, UInt8.toNat_toUInt64, ← Nat.two_pow_add_eq_or_of_lt low]
  omega

/-- Bytes spell their value, as far as a word goes. -/
theorem keyId_eq (data : Bytes) : keyId data = UInt64.ofNat (value data) := by
  apply UInt64.toNat_inj.1
  rw [UInt64.toNat_ofNat']
  induction data using List.reverseRecOn with
  | nil => rfl
  | append_singleton data b ih =>
    have last : keyId (data ++ [b]) = (keyId data <<< 8) ||| b.toUInt64 := by
      simp [keyId]
    rw [last, toNat_push, ih, value_append_singleton]
    omega

theorem value_ofValue (width n : Nat) : value (ofValue width n) = n % 256 ^ width := by
  induction width generalizing n with
  | zero => exact (Nat.mod_one n).symm
  | succ width ih =>
    have digit : (UInt8.ofNat (n % 256)).toNat = n % 256 := by
      rw [UInt8.toNat_ofNat']
      omega
    rw [ofValue, value_append_singleton, ih, digit, pow_succ', Nat.mod_mul]
    ring

theorem toNat_keyId (data : Bytes) : (keyId data).toNat = value data % 2 ^ 64 := by
  rw [keyId_eq, UInt64.toNat_ofNat']

theorem value_ofWord (n : UInt64) : value (ofWord n) = n.toNat := by
  rw [ofWord, value_ofValue]
  exact Nat.mod_eq_of_lt n.toNat_lt

/-- The bytes of a word spell the word, for there is no room for those before them. -/
theorem keyId_append_ofWord (before : Bytes) (n : UInt64) : keyId (before ++ ofWord n) = n := by
  apply UInt64.toNat_inj.1
  have word : (ofWord n).length = 8 := length_ofValue 8 n.toNat
  rw [toNat_keyId, value_append, value_ofWord, word]
  exact Nat.mul_add_mod_of_lt n.toNat_lt

theorem keyId_ofWord (n : UInt64) : keyId (ofWord n) = n := keyId_append_ofWord [] n

end SerialDispatch.Bytes
