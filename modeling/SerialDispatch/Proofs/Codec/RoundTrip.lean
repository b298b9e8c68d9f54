import SerialDispatch.Codec.Result
import SerialDispatch.Proofs.Json.Members

/-!
# Decoding what was encoded

Every value of the data model is decoded from its own written form: for each type one lemma says
that its reader `Reads` the value from what its encoder writes, built from those of its parts; main
statement: `decode_compact`. A request is written under the name of its kind, which is the tag in
lower case with the words kept apart: `Kind.snake_tag`.
-/
namespace SerialDispatch
open Reader

namespace Kind

/-- A name of several words, each with a capital, in lower case and with underscores between the
words. -/
def snake : List Char → List Char
  | [] => []
  | c :: rest => c.toLower :: rest.flatMap fun d => if d.isUpper then ['_', d.toLower] else [d]

theorem snake_tag (k : Kind) : String.ofList (snake k.tag.toList) = k.name := by
  cases k <;> decide

theorem reads (k : Kind) : Reads reader k.toJson.chars k := by
  apply Choice.reads_bare
  cases k <;> decide

theorem reads_name (k : Kind) : Reads named.reader (Json.string k.name).chars k := by
  apply Choice.reads_bare
  cases k <;> decide

end Kind

namespace Bytes

theorem reads (data : Bytes) : Reads reader data.toJson.chars data := by
  have list : Reads (Reader.list Reader.byte) data.toJson.chars data :=
    reads_list fun b _ => reads_byte b
  refine ⟨list.opens, fun rest ends => ?_⟩
  -- What is written is an array, so it is not taken for a text.
  have text : ∃ more, data.toJson.chars ++ rest = '[' :: more := by
    rw [toJson, Json.ofList, Json.chars]
    exact ⟨_, rfl⟩
  obtain ⟨more, text⟩ := text
  rw [reader, text, trim_cons (by decide), ← text]
  exact list.takes rest ends

theorem reads_wrapped (data : Bytes) : Reads wrapped data.wrappedJson.chars data :=
  Record.reads_single rfl (reads data) rfl

end Bytes

theorem Payload.reads (p : Payload) : Reads Payload.reader p.toJson.chars p :=
  (Bytes.reads_wrapped p.data).map Payload.mk

theorem Keyring.reads (k : Keyring) : Reads Keyring.reader k.toJson.chars k :=
  (Bytes.reads_wrapped k.data).map Keyring.mk

namespace Request

theorem part_first {name : String} {which : Part} (named : Part.ofName? name = some which)
    (rest : List Char) : part false (Json.quoted name.toList ++ rest) = .ok (some which, rest) := by
  have shown : trim (Json.quoted name.toList ++ rest) = Json.quoted name.toList ++ rest :=
    trim_cons (by decide) _
  rw [part, nextPart, shown]
  split
  · rename_i closing
    exact absurd (List.cons.inj closing).1 (by decide)
  · simp only [bind, Except.bind, Bool.false_eq_true, if_false, string_quoted, named]
    rfl

theorem part_next {name : String} {which : Part} (named : Part.ofName? name = some which)
    (rest : List Char) :
    part true (',' :: (Json.quoted name.toList ++ rest)) = .ok (some which, rest) := by
  rw [part, nextPart, trim_cons (by decide)]
  split
  · rename_i closing
    exact absurd (List.cons.inj closing).1 (by decide)
  · simp only [bind, Except.bind, punctuation_cons (show isBlank ',' = false by decide), if_true,
      string_quoted, named]
    rfl

theorem part_end (later : Bool) (rest : List Char) :
    part later ('\x7d' :: rest) = .ok (none, rest) := by
  rw [part, nextPart, trim_cons (by decide)]
  rfl

theorem close_end (r : Request) (rest : List Char) : close r ('\x7d' :: rest) = .ok (r, rest) := by
  rw [close, part_end]
  rfl

/-- The kind comes first, so the payload is decoded where it stands. -/
theorem reads (r : Request) : Reads reader r.toJson.chars r := by
  constructor
  · exact ⟨'\x7b', _, by rw [toJson, Json.chars]; rfl, by decide, by decide⟩
  · intro rest _
    have text : r.toJson.chars ++ rest = '\x7b' :: (Json.quoted "kind".toList ++
        ':' :: ((Json.string r.kind.name).chars ++ ',' :: (Json.quoted "payload".toList ++
          ':' :: (r.payload.toJson.chars ++ '\x7d' :: rest)))) := by
      simp [toJson, Json.chars, Json.membersChars, Json.moreMembers]
    have kind := (Kind.reads_name r.kind).takes _ (ends_comma
      (Json.quoted "payload".toList ++ ':' :: (r.payload.toJson.chars ++ '\x7d' :: rest)))
    have payload := (Payload.reads r.payload).takes _ (ends_brace rest)
    rw [reader, text, trim_cons (by decide)]
    simp only [bind, Except.bind, part_first (show Part.ofName? "kind" = some .kind by decide),
      kindFirst, punctuation_cons (show isBlank ':' = false by decide), kind,
      part_next (show Part.ofName? "payload" = some .payload by decide), payload]
    exact close_end r rest

end Request

namespace Failure

theorem reads (f : Failure) : Reads reader f.toJson.chars f := by
  cases f with
  | badPassphrase => exact Choice.reads_bare (by decide)
  | keyNotFound id =>
    apply Choice.reads_laden rfl rfl
    exact Record.reads_single rfl (reads_word64 id) rfl
  | repository message => exact Choice.reads_laden rfl rfl ((reads_string message).map _)
  | io message => exact Choice.reads_laden rfl rfl ((reads_string message).map _)
  | internal message => exact Choice.reads_laden rfl rfl ((reads_string message).map _)

end Failure

theorem Status.reads (s : Status) : Reads Status.reader s.toJson.chars s := by
  cases s with
  | ok => exact Choice.reads_bare (by decide)
  | cancelled => exact Choice.reads_bare (by decide)
  | failed f => exact Choice.reads_laden rfl rfl ((Failure.reads f).map Status.failed)

theorem Level.reads (l : Level) : Reads Level.reader l.toJson.chars l := by
  apply Choice.reads_bare
  cases l <;> decide

namespace LogEntry

def entries (e : LogEntry) : List record.Entry :=
  [⟨.level, e.level.toJson, e.level⟩, ⟨.message, .string e.message, e.message⟩]

theorem toJson_entries (e : LogEntry) :
    e.toJson = .object (e.entries.map Record.Entry.member) := rfl

theorem reads (e : LogEntry) : Reads reader e.toJson.chars e := by
  rw [toJson_entries]
  apply Record.reads_object
  · intro i
    cases i <;> rfl
  · intro d h
    simp only [entries, List.mem_cons, List.not_mem_nil, or_false] at h
    rcases h with rfl | rfl
    · exact Level.reads e.level
    · exact reads_string e.message
  · show [Part.level, Part.message].Nodup
    decide
  · rfl

end LogEntry

namespace Result

def entries (r : Result) : List record.Entry :=
  [⟨.kind, r.kind.toJson, r.kind⟩, ⟨.status, r.status.toJson, r.status⟩,
    ⟨.log, .ofList LogEntry.toJson r.log, r.log⟩]

theorem toJson_entries (r : Result) :
    r.toJson = .object (r.entries.map Record.Entry.member) := rfl

theorem reads (r : Result) : Reads reader r.toJson.chars r := by
  rw [toJson_entries]
  apply Record.reads_object
  · intro i
    cases i <;> rfl
  · intro d h
    simp only [entries, List.mem_cons, List.not_mem_nil, or_false] at h
    rcases h with rfl | rfl | rfl
    · exact Kind.reads r.kind
    · exact Status.reads r.status
    · exact reads_list fun e _ => LogEntry.reads e
  · show [Part.kind, Part.status, Part.log].Nodup
    decide
  · rfl

end Result

/-- What a reader reads from the written form of a value is decoded from it. -/
theorem decode_of_reads {α : Type} {read : Reader α} {json : Json} {a : α}
    (reads : Reads read json.chars a) : decode read json.compact = .ok a := by
  rw [decode, Json.compact, String.toList_ofList]
  exact reads.whole

/-- Every value of the data model is decoded from its own written form; and in that of a request
the kind stands under its name, the tag in lower case with underscores between the words, and the
payload beside it. -/
theorem decode_compact :
    (∀ k : Kind, decode Kind.reader k.toJson.compact = .ok k) ∧
    (∀ p : Payload, decode Payload.reader p.toJson.compact = .ok p) ∧
    (∀ k : Keyring, decode Keyring.reader k.toJson.compact = .ok k) ∧
    (∀ r : Request, decode Request.reader r.toJson.compact = .ok r ∧
      r.toJson.field? "kind" = some (.string (String.ofList (Kind.snake r.kind.tag.toList))) ∧
      String.ofList (Kind.snake r.kind.tag.toList) = r.kind.name ∧
      r.toJson.field? "payload" = some r.payload.toJson) ∧
    (∀ f : Failure, decode Failure.reader f.toJson.compact = .ok f) ∧
    (∀ s : Status, decode Status.reader s.toJson.compact = .ok s) ∧
    (∀ l : Level, decode Level.reader l.toJson.compact = .ok l) ∧
    (∀ e : LogEntry, decode LogEntry.reader e.toJson.compact = .ok e) ∧
    (∀ r : Result, decode Result.reader r.toJson.compact = .ok r) := by
  refine ⟨fun k => decode_of_reads k.reads, fun p => decode_of_reads p.reads,
    fun k => decode_of_reads k.reads, fun r => ⟨decode_of_reads r.reads, ?_, ?_, ?_⟩,
    fun f => decode_of_reads f.reads, fun s => decode_of_reads s.reads,
    fun l => decode_of_reads l.reads, fun e => decode_of_reads e.reads,
    fun r => decode_of_reads r.reads⟩
  · rw [Kind.snake_tag]
    rfl
  · exact Kind.snake_tag r.kind
  · rfl

end SerialDispatch
