import SerialDispatch.Proofs.Codec.Requests

/-!
# Decoding every spelling

What is written of a value is one of its spellings, and all spellings of a value decode to it, with
any blanks around them; a spelling with a fault decodes to the problem of its fault. Main statement:
`decode_spellings`.
-/
namespace SerialDispatch
open Reader Texts Spelling

section Own

theorem Level.own (l : Level) : l.toJson.chars ∈ l.spelling.right := .inl rfl

theorem Kind.own (k : Kind) : k.toJson.chars ∈ k.spelling.right := .inl rfl

theorem Bytes.own (data : Bytes) : data.toJson.chars ∈ data.spelling.right :=
  list_right data fun _ _ => rfl

theorem Bytes.own_wrapped (data : Bytes) :
    data.wrappedJson.chars ∈ objects [.of "data" Bytes.spelling data] :=
  objects_right (.cons ⟨rfl, data.own⟩ .nil)

theorem laden_own {name : String} {json : Json} {s : Spelling} (own : json.chars ∈ s.right) :
    (Json.object [(name, json)]).chars ∈ (laden name s).right := by
  have only : memberChars (name, json) ∈ member name s.right :=
    memberChars_mem (m := (name, json)) own
  exact object_mem (.cons only .nil)

theorem Failure.own (f : Failure) : f.toJson.chars ∈ f.spelling.right := by
  cases f with
  | badPassphrase => exact .inl rfl
  | keyNotFound id => exact laden_own (.inl (objects_right (.cons ⟨rfl, rfl⟩ .nil)))
  | repository message => exact laden_own rfl
  | io message => exact laden_own rfl
  | internal message => exact laden_own rfl

theorem Status.own (s : Status) : s.toJson.chars ∈ s.spelling.right := by
  cases s with
  | ok => exact .inl rfl
  | cancelled => exact .inl rfl
  | failed f => exact laden_own f.own

theorem LogEntry.own (e : LogEntry) : e.toJson.chars ∈ e.spelling.right :=
  .inl (objects_right (.cons ⟨rfl, e.level.own⟩ (.cons ⟨rfl, rfl⟩ .nil)))

theorem Result.own (r : Result) : r.toJson.chars ∈ r.spelling.right :=
  .inl (objects_right (.cons ⟨rfl, r.kind.own⟩ (.cons ⟨rfl, r.status.own⟩
    (.cons ⟨rfl, list_right r.log fun e _ => e.own⟩ .nil))))

theorem Payload.own (p : Payload) : p.toJson.chars ∈ p.spelling.right := .inl p.data.own_wrapped

theorem Keyring.own (k : Keyring) : k.toJson.chars ∈ k.spelling.right := .inl k.data.own_wrapped

theorem Request.own (r : Request) : r.toJson.chars ∈ r.spelling.right :=
  .inl (objects_right (.cons ⟨rfl, .inl rfl⟩ (.cons ⟨rfl, r.payload.own⟩ .nil)))

theorem CryptoInput.own (passphrase : Option String) (time : Option UInt64) :
    ∃ json, (CryptoInput.mk passphrase .empty time).toJson = .ok json ∧
      json.chars ∈ (spelling passphrase time).right :=
  ⟨_, rfl, .inl (objects_right (.cons ⟨rfl, rfl⟩ (.cons ⟨rfl, object_mem .nil⟩
    (.cons ⟨rfl, rfl⟩ .nil))))⟩

end Own

/-- What is written of the value is a right spelling, every right spelling decodes to the value, and
every one with a fault to its problem. -/
structure Decodes {α : Type} (read : Reader α) (json : Json) (s : Spelling) (a : α) : Prop where
  own : json.chars ∈ s.right
  right : ∀ text : String, text.toList ∈ blanks * s.right * blanks → decode read text = .ok a
  wrong : ∀ e, ∀ text : String, text.toList ∈ blanks * s.wrong e * blanks →
    decode read text = .error e

theorem Reader.Answers.decodes {α : Type} {read : Reader α} {json : Json} {s : Spelling} {a : α}
    (answers : Answers read s a) (own : json.chars ∈ s.right) : Decodes read json s a := by
  have whole : ∀ {l : Language Char} {outcome}, (∀ t ∈ l, Yields read t outcome) →
      ∀ text : String, text.toList ∈ blanks * l * blanks → decode read text = outcome := by
    intro l outcome yields text there
    obtain ⟨_, ⟨before, blank, inner, inside, rfl⟩, after, blank', same⟩ := there
    rw [decode, ← same]
    simp only [List.append_assoc]
    exact (yields inner inside).whole blank blank'
  exact ⟨own, whole answers.right, fun e => whole (answers.wrong e)⟩

theorem Reader.Answers.decode_written {α : Type} {read : Reader α} {json : Json} {s : Spelling}
    {a : α} (answers : Answers read s a) (own : json.chars ∈ s.right) :
    decode read json.compact = .ok a := by
  have whole := (answers.right _ own).whole allBlank_nil allBlank_nil
  rw [List.nil_append, List.append_nil] at whole
  rw [decode, Json.compact, String.toList_ofList, whole]

/-- Every record of the data model decodes from all its spellings: with its members in any order and
among others, or as an array, at every depth. A member that comes twice is a duplicate; an array
that goes on behind its last element is malformed, and so is one without one of its elements, except
where the next element stands in its place and has a name that is unknown there. -/
theorem decode_spellings :
    (∀ p : Payload, Decodes Payload.reader p.toJson p.spelling p) ∧
    (∀ k : Keyring, Decodes Keyring.reader k.toJson k.spelling k) ∧
    (∀ e : LogEntry, Decodes LogEntry.reader e.toJson e.spelling e) ∧
    (∀ r : Result, Decodes Result.reader r.toJson r.spelling r) ∧
    (∀ r : Request, Decodes Request.reader r.toJson r.spelling r) ∧
    (∀ passphrase time, ∃ json, (CryptoInput.mk passphrase .empty time).toJson = .ok json ∧
      Decodes CryptoInput.reader json (CryptoInput.spelling passphrase time)
        ⟨passphrase, .empty, time⟩) := by
  refine ⟨fun p => p.answers.decodes p.own, fun k => k.answers.decodes k.own,
    fun e => e.answers.decodes e.own, fun r => r.answers.decodes r.own,
    fun r => r.answers.decodes r.own, fun passphrase time => ?_⟩
  obtain ⟨json, written, own⟩ := CryptoInput.own passphrase time
  exact ⟨json, written, (CryptoInput.answers passphrase time).decodes own⟩

/-- An array without the level of a log entry, which is not malformed. -/
theorem level_left_out :
    "[\"x\"]".toList ∈ arrayOf ((LogEntry.mk .info "x").fields.drop 1) ∧
    decode LogEntry.reader "[\"x\"]" = .error .unknownVariant ∧
    ¬ decode LogEntry.reader "[\"x\"]" = .error .malformed := by
  have decoded : decode LogEntry.reader "[\"x\"]" = .error .unknownVariant := by
    rfl
  refine ⟨?_, decoded, by rw [decoded]; nofun⟩
  exact mem_enclosed_cons.2
    ⟨[], _, _, allBlank_nil, rfl, mem_behind_nil.2 ⟨[], allBlank_nil, rfl⟩, rfl⟩

end SerialDispatch
