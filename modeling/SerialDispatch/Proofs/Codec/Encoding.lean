import SerialDispatch.Proofs.Codec.Decoding

/-!
# Which inputs have a written form

The keys of the data are bytes, and a member needs a name: an input has a written form just while it
has no data, and no text decodes to an input with data. So what is written decodes to what it was
written of, and what was decoded can be written again. Main statement:
`CryptoInput.written_and_read`.
-/
namespace SerialDispatch.CryptoInput
open Reader

theorem cryptoData_eq_empty_iff (c : CryptoInput) :
    c.cryptoData = .empty ↔ ∃ json, c.toJson = .ok json := by
  obtain ⟨passphrase, ⟨entries, ascending⟩, time⟩ := c
  cases entries with
  | nil => exact ⟨fun _ => ⟨_, rfl⟩, fun _ => rfl⟩
  | cons e rest =>
    refine ⟨fun same => absurd (congrArg OrderedMap.entries same) (List.cons_ne_nil e rest), ?_⟩
    rintro ⟨json, written⟩
    cases written

/-- A key of bytes has no name. -/
theorem toJson_of_ne_empty {c : CryptoInput} (data : c.cryptoData ≠ .empty) :
    c.toJson = .error .keyNotText := by
  obtain ⟨passphrase, ⟨entries, ascending⟩, time⟩ := c
  cases entries with
  | nil => exact absurd rfl data
  | cons e rest => rfl

theorem decode_toJson {c : CryptoInput} {json : Json} (written : c.toJson = .ok json) :
    decode reader json.compact = .ok c := by
  have none := c.cryptoData_eq_empty_iff.2 ⟨json, written⟩
  obtain ⟨passphrase, data, time⟩ := c
  obtain rfl : data = .empty := none
  obtain ⟨json', written', own⟩ := CryptoInput.own passphrase time
  obtain rfl : json' = json := Except.ok.inj (written'.symm.trans written)
  exact (answers passphrase time).decode_written own

theorem exists_read {α : Type} {read : Reader α} {text : String} {a : α}
    (decoded : decode read text = .ok a) : ∃ rest, read text.toList = .ok (a, rest) := by
  rw [decode, whole] at decoded
  cases found : read text.toList with
  | error e =>
    rw [found] at decoded
    cases decoded
  | ok result =>
    rw [found] at decoded
    simp only [bind, Except.bind] at decoded
    split at decoded
    · obtain rfl : result.1 = a := Except.ok.inj decoded
      exact ⟨result.2, rfl⟩
    · cases decoded

/-- What is read is made without data. -/
theorem cryptoData_of_decode {text : String} {c : CryptoInput}
    (decoded : decode reader text = .ok c) : c.cryptoData = .empty := by
  obtain ⟨rest, found⟩ := exists_read decoded
  rw [reader, Record.reader] at found
  cases slots : record.slots text.toList with
  | error e =>
    rw [slots] at found
    cases found
  | ok members =>
    rw [slots] at found
    simp only [bind, Except.bind] at found
    cases data : required (members.1 .cryptoData) with
    | error e =>
      rw [data] at found
      cases found
    | ok v =>
      rw [data] at found
      cases found
      rfl

/-- An input is written if it has no data, and then decodes from what was written; and whatever is
decoded has no data, so it can be written and decoded again. -/
theorem written_and_read :
    (∀ c : CryptoInput, (c.cryptoData = .empty ↔ ∃ json, c.toJson = .ok json) ∧
      (c.cryptoData ≠ .empty → ∃ e, c.toJson = .error e ∧ e.message = "key must be a string") ∧
      ∀ json, c.toJson = .ok json → decode reader json.compact = .ok c) ∧
    ∀ text c, decode reader text = .ok c → c.cryptoData = .empty ∧
      ∃ json, c.toJson = .ok json ∧ decode reader json.compact = .ok c := by
  refine ⟨fun c => ⟨c.cryptoData_eq_empty_iff, fun data => ⟨_, toJson_of_ne_empty data, rfl⟩,
    fun json => decode_toJson⟩, fun text c decoded => ?_⟩
  have none := cryptoData_of_decode decoded
  obtain ⟨json, written⟩ := c.cryptoData_eq_empty_iff.1 none
  exact ⟨none, json, written, decode_toJson written⟩

end SerialDispatch.CryptoInput
