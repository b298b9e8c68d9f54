import SerialDispatch.Proofs.Simulation.Requests

/-!
# Where the keyrings of a simulation are kept

An operation saves a keyring under one key id, which the payload of its request spells. The payload
of a request is its number in eight bytes, so each request has a key id to itself, and when all is
over the store holds the keyring of every request that was not cancelled, and nothing else. Main
statement: `key_ids_spelled`.
-/
namespace SerialDispatch.Simulation

namespace Options

variable (o : Options)

/-- The operation that is made for the request has a step that saves under this id. -/
def SavesUnder (request : Request) (id : UInt64) : Prop :=
  ∃ keyring, BodyStep.store (.save id keyring) ∈ o.body request

theorem savesUnder_iff (request : Request) (id : UInt64) :
    o.SavesUnder request id ↔ id = request.payload.data.keyId := by
  have steps : ∀ keyring, BodyStep.store (.save id keyring) ∉
      (List.range o.steps.toNat).flatMap o.stepBody := by
    intro keyring there
    obtain ⟨i, -, there⟩ := List.mem_flatMap.1 there
    simp [stepBody] at there
  simp [SavesUnder, body, steps, saveBody]

theorem savesUnder_requestOf (i id : UInt64) : o.SavesUnder (requestOf i.toNat) id ↔ id = i := by
  rw [savesUnder_iff, keyId_requestOf, UInt64.ofNat_toNat]

theorem mem_saves (room : o.count ≤ UInt64.size) (id : UInt64) (keyring : Keyring) :
    (id, keyring) ∈ o.saves ↔
      id.toNat ∈ o.performed ∧ keyring = ⟨.ofString (kindOf id.toNat).name⟩ := by
  rw [saves, List.mem_map]
  constructor
  · rintro ⟨i, there, same⟩
    obtain ⟨rfl, rfl⟩ := Prod.mk.inj same
    have small : i < UInt64.size :=
      (List.mem_range.1 (List.mem_filter.1 there).1).trans_le room
    rw [UInt64.toNat_ofNat_of_lt' small]
    exact ⟨there, rfl⟩
  · rintro ⟨there, rfl⟩
    exact ⟨id.toNat, there, by rw [UInt64.ofNat_toNat]⟩

theorem load_settled (room : o.count ≤ UInt64.size) (id : UInt64) (keyring : Keyring) :
    o.settled.store.load id = some keyring ↔
      id.toNat ∈ o.performed ∧ keyring = ⟨.ofString (kindOf id.toNat).name⟩ := by
  rw [store_settled, load_storeOf (o.nodup_saves room), mem_saves o room]

end Options

/-- An operation saves under the id that the payload of its request spells. This is the value of the
bytes as far as a word goes, which is the value of the last eight of them, so that the eight bytes
of a number spell that number, whatever stands before them. Hence no two requests of a simulation
save under the same id, and in the end the keyring of each is found under its number, unless it was
cancelled, and there are no others. -/
theorem key_ids_spelled :
    (∀ (o : Options) (request : Request) (id : UInt64),
      o.SavesUnder request id ↔ id = request.payload.data.keyId) ∧
    (∀ data : Bytes, data.keyId.toNat = data.value % 2 ^ 64 ∧
      data.keyId.toNat = Bytes.value (data.rtake 8)) ∧
    (∀ n : UInt64, (Bytes.ofWord n).length = 8 ∧ (Bytes.ofWord n).value = n.toNat ∧
      ∀ before : Bytes, Bytes.keyId (before ++ .ofWord n) = n) ∧
    (∀ (o : Options) (i id : UInt64), o.SavesUnder (requestOf i.toNat) id ↔ id = i) ∧
    (∀ o : Options, o.count ≤ 2 ^ 64 → ∀ (id : UInt64) (keyring : Keyring),
      o.settled.store.load id = some keyring ↔
        id.toNat ∈ o.performed ∧ keyring = ⟨.ofString (kindOf id.toNat).name⟩) := by
  refine ⟨Options.savesUnder_iff, fun data => ⟨Bytes.toNat_keyId data, ?_⟩, fun n => ?_,
    Options.savesUnder_requestOf, Options.load_settled⟩
  · exact (Bytes.toNat_keyId data).trans (Bytes.value_mod data 8)
  · exact ⟨Bytes.length_ofValue 8 n.toNat, Bytes.value_ofWord n,
      fun before => Bytes.keyId_append_ofWord before n⟩

/-- Six requests are made unless the options say otherwise, and the one with number 4 keeps its
keyring under 4; of nine bytes the first is not heeded. -/
theorem key_ids_spelled_of_six :
    ({} : Options).count ≤ 2 ^ 64 ∧
    ({} : Options).settled.store.load 4 = some ⟨.ofString "revoke"⟩ ∧
    Bytes.keyId [7, 0, 0, 0, 0, 0, 0, 1, 44] = 300 := by
  have room : ({} : Options).count ≤ 2 ^ 64 := by decide
  obtain ⟨-, -, spelled, -, stored⟩ := key_ids_spelled
  exact ⟨room, (stored {} room 4 _).2 (by decide), (spelled 300).2.2 [7]⟩

end SerialDispatch.Simulation
