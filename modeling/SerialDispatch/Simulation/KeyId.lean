import SerialDispatch.Request

/-!
# Key ids from bytes

A simulated operation saves its keyring under the key id that its payload spells: the value of the
bytes, the first byte the most significant, of which a word keeps the last eight.
-/
namespace SerialDispatch.Bytes

/-- The value of bytes, the first the most significant. -/
def value : Bytes → Nat
  | [] => 0
  | b :: rest => b.toNat * 256 ^ rest.length + value rest

/-- The key id that bytes spell: each byte pushes those before it up by eight bits. -/
def keyId (data : Bytes) : UInt64 := data.foldl (fun id b => (id <<< 8) ||| b.toUInt64) 0

/-- The lowest `width` bytes of a number, the most significant first. -/
def ofValue : Nat → Nat → Bytes
  | 0, _ => []
  | width + 1, n => ofValue width (n / 256) ++ [UInt8.ofNat (n % 256)]

@[simp] theorem length_ofValue (width n : Nat) : (ofValue width n).length = width := by
  induction width generalizing n with
  | zero => rfl
  | succ width ih => simp [ofValue, ih]

/-- All eight bytes of a word, the most significant first. -/
def ofWord (n : UInt64) : Bytes := ofValue 8 n.toNat

end SerialDispatch.Bytes
