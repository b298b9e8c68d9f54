import SerialDispatch.Codec.Result
import SerialDispatch.Proofs.Codec.RoundTrip
import SerialDispatch.Proofs.Json.Sheets

/-!
# The spellings of the data model

How the values of the data model may be spelled, type by type, and that their readers answer these
spellings.
-/
namespace SerialDispatch
open Reader Texts Spelling

/-- A record is an object or an array. -/
theorem Record.opensWith_reader {ι α : Type} [DecidableEq ι] {R : Record ι}
    (build : R.Slots → Except DecodeError α) :
    OpensWith (R.reader build) fun c => c = '\x7b' || c = '[' := by
  intro blanks c more blank shown foreign
  rw [Bool.or_eq_false_iff] at foreign
  rw [Record.reader, Record.slots, trim_blanks_cons blank shown]
  split
  · rename_i same
    exact absurd (List.cons.inj same).1 (of_decide_eq_false foreign.1)
  · rename_i same
    exact absurd (List.cons.inj same).1 (of_decide_eq_false foreign.2)
  · rfl

/-- So where an array ends too early, the next member is malformed. -/
theorem Reader.OpensWith.bracket {α : Type} {read : Reader α} {opening : Char → Bool}
    (opens : OpensWith read opening) (foreign : opening ']' = false) (blanks rest : List Char)
    (blank : AllBlank blanks) : read (blanks ++ ']' :: rest) = .error .malformed :=
  opens blanks ']' rest blank (by decide) foreign

/-- A record of one member answers where the member does. -/
theorem Record.answers_single {R : Record Unit} {α : Type} {build : R.Slots → Except DecodeError α}
    {spell : R.Value () → Spelling} {v : R.Value ()} {a : α} {opening : Char → Bool}
    (order : R.order = [()]) (answers : ∀ v, Answers (R.read ()) (spell v) v)
    (opens : OpensWith (R.read ()) opening) (foreign : opening ']' = false)
    (built : build (R.put R.none () v) = .ok a) :
    Answers (R.reader build) (.record [.of (R.name ()) spell v]) a := by
  let S : R.Sheet := ⟨fun _ => spell, fun _ => v, fun _ => false, fun _ => .malformed⟩
  have fields : S.fields = [.of (R.name ()) spell v] := by rw [Sheet.fields, order]; rfl
  rw [← fields]
  refine Record.answers ⟨fun _ => by simp [member?, order], by simp [order], by simp [order],
    fun _ => answers, fun _ => opens.bracket foreign, fun slots filled => ?_, by rw [order]; rfl⟩
  have same : slots = R.put R.none () v := by
    funext i
    rw [(filled i).resolve_right (by simp [S]), put_self]
  rw [same, built]

/-- Texts are spelled as they are written. -/
def Spelling.text (s : String) : Spelling := .written (.string s)

theorem answers_text (s : String) : Answers string (.text s) s := (yields_string s).answers

namespace Kind

def spelling (k : Kind) : Spelling := .plain k.tag

theorem answers (k : Kind) : Answers reader k.spelling k := by
  apply Choice.answers_plain
  cases k <;> decide

end Kind

namespace Bytes

def spelling (data : Bytes) : Spelling := .list (data.map fun b => .written (.nat b.toNat))

/-- Bytes are numbers in an array, or those of a text. -/
theorem opensWith_reader : OpensWith reader fun c => c = '"' || c = '[' := by
  intro blanks c more blank shown foreign
  rw [Bool.or_eq_false_iff] at foreign
  rw [reader, trim_blanks_cons blank shown]
  split
  · rename_i same
    exact absurd (List.cons.inj same).1 (of_decide_eq_false foreign.1)
  · exact opensWith_list byte blanks c more blank shown foreign.2

theorem answers (data : Bytes) : Answers reader data.spelling data := by
  have list : Answers (Reader.list byte) data.spelling data :=
    answers_list (fun b => (yields_byte b).answers) data
  -- The texts are arrays, so they are not taken for quoted ones.
  have bracketed : ∀ {text outcome}, (∃ inner, text = '[' :: inner) →
      Yields (Reader.list byte) text outcome → Yields reader text outcome := by
    rintro _ outcome ⟨inner, rfl⟩ yields
    refine ⟨yields.begins, fun blanks rest blank ends => ?_⟩
    rw [reader, List.cons_append, trim_blanks_cons blank (by decide)]
    exact yields.gives blanks rest blank ends
  refine ⟨fun text there => ?_, fun e text there => ?_⟩
  · obtain ⟨inner, start, -⟩ := begins_enclosed (by decide) (by decide) there
    exact bracketed ⟨inner, start⟩ (list.right text there)
  · obtain ⟨_, _, _, -, within⟩ := id there
    obtain ⟨inner, start, -⟩ := begins_enclosed (by decide) (by decide) within
    exact bracketed ⟨inner, start⟩ (list.wrong e text there)

def wrappedSpelling (data : Bytes) : Spelling := .record [.of "data" spelling data]

theorem answers_wrapped (data : Bytes) : Answers wrapped data.wrappedSpelling data :=
  Record.answers_single rfl answers opensWith_reader rfl rfl

end Bytes

namespace Payload

def spelling (p : Payload) : Spelling := p.data.wrappedSpelling

theorem answers (p : Payload) : Answers reader p.spelling p :=
  (Bytes.answers_wrapped p.data).map Payload.mk

end Payload

namespace Keyring

def spelling (k : Keyring) : Spelling := k.data.wrappedSpelling

theorem answers (k : Keyring) : Answers reader k.spelling k :=
  (Bytes.answers_wrapped k.data).map Keyring.mk

end Keyring

namespace Failure

/-- A failure that says no more than its name is a text, any other an object of one member. -/
def spelling : Failure → Spelling
  | .badPassphrase => .plain "BadPassphrase"
  | .keyNotFound id => .laden "KeyNotFound"
      (.record [.of "master_key_id" (fun n : UInt64 => .written (.nat n.toNat)) id])
  | .repository message => .laden "Repository" (.text message)
  | .io message => .laden "Io" (.text message)
  | .internal message => .laden "Internal" (.text message)

theorem answers (f : Failure) : Answers reader f.spelling f := by
  cases f with
  | badPassphrase => exact Choice.answers_plain (by decide)
  | keyNotFound id =>
    exact Choice.answers_laden rfl rfl (Record.answers_single rfl
      (fun n => (yields_word64 n).answers) ((opensWith_natural _).map UInt64.ofNat) rfl rfl)
  | repository message => exact Choice.answers_laden rfl rfl ((answers_text message).map _)
  | io message => exact Choice.answers_laden rfl rfl ((answers_text message).map _)
  | internal message => exact Choice.answers_laden rfl rfl ((answers_text message).map _)

end Failure

namespace Status

def spelling : Status → Spelling
  | .ok => .plain "Ok"
  | .cancelled => .plain "Cancelled"
  | .failed f => .laden "Failed" f.spelling

theorem answers (s : Status) : Answers reader s.spelling s := by
  cases s with
  | ok => exact Choice.answers_plain (by decide)
  | cancelled => exact Choice.answers_plain (by decide)
  | failed f => exact Choice.answers_laden rfl rfl ((Failure.answers f).map Status.failed)

end Status

namespace Level

def spelling (l : Level) : Spelling := .plain l.tag

theorem answers (l : Level) : Answers reader l.spelling l := by
  apply Choice.answers_plain
  cases l <;> decide

/-- A text is the name of a level, or of none at all. -/
theorem lookup_eq_none {name : String} (unknown : name ∉ all.map tag) :
    alternatives.plain.lookup name = none := by
  refine List.lookup_eq_none_iff.2 fun entry there => ?_
  obtain ⟨l, given, rfl⟩ := List.mem_map.1 there
  have other : name ≠ l.tag := fun same => unknown (same ▸ List.mem_map_of_mem given)
  exact bne_iff_ne.2 other

end Level

namespace LogEntry

/-- Without its level, an entry has its message in the place of a level. -/
def fields (e : LogEntry) : List Field := [
  { Field.of "level" Level.spelling e.level with
    missing := if e.message ∈ Level.all.map Level.tag then .malformed else .unknownVariant },
  .of "message" .text e.message]

def spelling (e : LogEntry) : Spelling := .record e.fields

def sheet (e : LogEntry) : record.Sheet where
  spell
    | .level => Level.spelling
    | .message => Spelling.text
  values
    | .level => e.level
    | .message => e.message
  omissible _ := false
  missing
    | .level => if e.message ∈ Level.all.map Level.tag then .malformed else .unknownVariant
    | .message => .malformed

theorem sound (e : LogEntry) : e.sheet.Sound (fun slots => do
    return ⟨← required (slots .level), ← required (slots .message)⟩) e where
  named i := by cases i <;> rfl
  apart := by decide
  nonempty := by decide
  answers
    | .level => Level.answers
    | .message => answers_text
  bracket
    | .level => Choice.opensWith_reader.bracket rfl
    | .message => opensWith_string.bracket rfl
  built slots filled := by
    rw [(filled .level).resolve_right (by simp [sheet]),
      (filled .message).resolve_right (by simp [sheet])]
    rfl
  shifted := by
    -- The message is read as a level; if it happens to be one, the array ends too early.
    refine ⟨fun text there => ?_, rfl⟩
    obtain rfl := Set.mem_singleton_iff.1 there
    by_cases known : e.message ∈ Level.all.map Level.tag
    · obtain ⟨l, -, same⟩ := List.mem_map.1 known
      refine .inr ⟨rfl, if_pos known, l, (Level.answers l).right _ (.inl ?_)⟩
      exact congrArg (fun s => (Json.string s).chars) same.symm
    · refine .inl ?_
      rw [show e.sheet.missing .level = .unknownVariant from if_neg known]
      exact Choice.yields_unknown (Level.lookup_eq_none known) rfl

theorem answers (e : LogEntry) : Answers reader e.spelling e := Record.answers e.sound

end LogEntry

namespace Result

/-- Without its kind, a result has its status in the place of a kind. -/
def fields (r : Result) : List Field := [
  { Field.of "kind" Kind.spelling r.kind with missing := .unknownVariant },
  .of "status" Status.spelling r.status,
  .of "log" (fun log => .list (log.map LogEntry.spelling)) r.log]

def spelling (r : Result) : Spelling := .record r.fields

def sheet (r : Result) : record.Sheet where
  spell
    | .kind => Kind.spelling
    | .status => Status.spelling
    | .log => fun log => .list (log.map LogEntry.spelling)
  values
    | .kind => r.kind
    | .status => r.status
    | .log => r.log
  omissible _ := false
  missing
    | .kind => .unknownVariant
    | .status | .log => .malformed

/-- No name of a status is that of a kind. -/
theorem status_as_kind (s : Status) {text : List Char} (there : text ∈ s.spelling.right) :
    Yields Kind.reader text (.error .unknownVariant) := by
  cases s with
  | ok =>
    rcases there with alone | there
    · obtain rfl := Set.mem_singleton_iff.1 alone
      exact Choice.yields_unknown (by decide) rfl
    · exact Choice.yields_unknown_object (by decide) rfl there
  | cancelled =>
    rcases there with alone | there
    · obtain rfl := Set.mem_singleton_iff.1 alone
      exact Choice.yields_unknown (by decide) rfl
    · exact Choice.yields_unknown_object (by decide) rfl there
  | failed f => exact Choice.yields_unknown_object (by decide) rfl there

theorem sound (r : Result) : r.sheet.Sound (fun slots => do
    return ⟨← required (slots .kind), ← required (slots .status), ← required (slots .log)⟩) r where
  named i := by cases i <;> rfl
  apart := by decide
  nonempty := by decide
  answers
    | .kind => Kind.answers
    | .status => Status.answers
    | .log => answers_list LogEntry.answers
  bracket
    | .kind => Choice.opensWith_reader.bracket rfl
    | .status => Choice.opensWith_reader.bracket rfl
    | .log => (opensWith_list _).bracket rfl
  built slots filled := by
    rw [(filled .kind).resolve_right (by simp [sheet]),
      (filled .status).resolve_right (by simp [sheet]),
      (filled .log).resolve_right (by simp [sheet])]
    rfl
  shifted := by
    -- The status is read as a kind, and the log as a status.
    refine ⟨fun text there => .inl (status_as_kind r.status there), fun text there => .inl ?_, rfl⟩
    obtain ⟨inner, rfl, begins⟩ := begins_enclosed (by decide) (by decide) there
    exact Choice.opensWith_reader.yields begins (by simp)

theorem answers (r : Result) : Answers reader r.spelling r := Record.answers r.sound

end Result

namespace CryptoInput

/-- A passphrase or a time that is not given may be left out. -/
def fields (passphrase : Option String) (time : Option UInt64) : List Field := [
  { Field.of "passphrase" (fun p => .written (.ofOption .string p)) passphrase with
    omissible := passphrase.isNone },
  .of "crypto_data" (fun _ : Unit => .vacant) (),
  { Field.of "signature_time_millis" (fun t : Option UInt64 =>
      .written (.ofOption (fun n => .nat n.toNat) t)) time with omissible := time.isNone }]

def spelling (passphrase : Option String) (time : Option UInt64) : Spelling :=
  .record (fields passphrase time)

def sheet (passphrase : Option String) (time : Option UInt64) : record.Sheet where
  spell
    | .passphrase => fun p : Option String => .written (.ofOption .string p)
    | .cryptoData => fun _ => .vacant
    | .signatureTime => fun t : Option UInt64 => .written (.ofOption (fun n => .nat n.toNat) t)
  values
    | .passphrase => passphrase
    | .cryptoData => ()
    | .signatureTime => time
  omissible
    | .passphrase => passphrase.isNone
    | .cryptoData => false
    | .signatureTime => time.isNone
  missing _ := .malformed

theorem answers_passphrase (p : Option String) :
    Answers (optional string) (.written (.ofOption .string p)) p := by
  cases p with
  | none => exact yields_none.answers
  | some s =>
    refine ((yields_string s).some ?_).answers
    rw [Json.chars]
    exact fun first => absurd (Option.some.inj first) (by decide)

/-- A number is not taken for the lack of one. -/
theorem digit_head (n : Nat) : ∀ c ∈ (Json.nat n).chars.head?, c.isDigit = true := by
  obtain ⟨c, more, digits, digit, -, -⟩ := exists_digits n
  have text : (Json.nat n).chars = c :: more := by
    rw [← digits, Json.nat, Json.chars]
    rfl
  rw [text]
  rintro d first
  obtain rfl : c = d := Option.some.inj first
  exact digit

theorem answers_time (t : Option UInt64) :
    Answers (optional word64) (.written (.ofOption (fun n => .nat n.toNat) t)) t := by
  cases t with
  | none => exact yields_none.answers
  | some n =>
    refine ((yields_word64 n).some fun first => ?_).answers
    exact absurd (digit_head _ 'n' first) (by decide)

/-- No data are an object without members, whatever blanks stand within. -/
theorem answers_noData (u : Unit) : Answers noData .vacant u := by
  refine ⟨fun text there => ?_, fun e text there => absurd there (Language.notMem_zero text)⟩
  obtain ⟨gap, blank, rfl⟩ := mem_enclosed_nil.1 there
  refine ⟨⟨_, _, rfl, by decide, by decide⟩, fun blanks rest blank' _ => ?_⟩
  rw [noData, List.cons_append, punctuation_blanks blank' (by decide), List.append_assoc]
  show (do return ((), ← punctuation '\x7d' (gap ++ ('\x7d' :: rest)))) = _
  rw [punctuation_blanks blank (by decide)]
  rfl

theorem opensWith_noData : OpensWith noData (· = '\x7b') := by
  intro blanks c more blank shown foreign
  rw [noData, punctuation_blanks_of_ne blank shown (of_decide_eq_false foreign)]
  rfl

theorem opensWith_passphrase : OpensWith (optional string) fun c => c = 'n' || c = '"' :=
  opensWith_optional opensWith_string

theorem opensWith_time : OpensWith (optional word64) fun c => c = 'n' || c.isDigit :=
  opensWith_optional ((opensWith_natural _).map UInt64.ofNat)

theorem sound (passphrase : Option String) (time : Option UInt64) :
    (sheet passphrase time).Sound (fun slots => do
      let _ ← required (slots .cryptoData)
      return (⟨(slots .passphrase).getD none, .empty, (slots .signatureTime).getD none⟩ :
        CryptoInput)) ⟨passphrase, .empty, time⟩ where
  named i := by cases i <;> rfl
  apart := by decide
  nonempty := by decide
  answers
    | .passphrase => answers_passphrase
    | .cryptoData => answers_noData
    | .signatureTime => answers_time
  bracket
    | .passphrase => opensWith_passphrase.bracket rfl
    | .cryptoData => opensWith_noData.bracket rfl
    | .signatureTime => opensWith_time.bracket rfl
  built slots filled := by
    have left : ∀ {β : Type} {o : Option (Option β)} {v : Option β},
        o = some v ∨ v.isNone = true ∧ o = none → o.getD none = v := by
      rintro β o v (rfl | ⟨nothing, rfl⟩)
      · rfl
      · exact (Option.isNone_iff_eq_none.1 nothing).symm
    rw [(filled .cryptoData).resolve_right (by simp [sheet])]
    exact congrArg₂ (fun p t => Except.ok (⟨p, .empty, t⟩ : CryptoInput))
      (left (filled .passphrase)) (left (filled .signatureTime))
  shifted := by
    -- The data are read as a passphrase, and the time as data.
    refine ⟨fun text there => .inl ?_, fun text there => .inl ?_, rfl⟩
    · have there : text ∈ object [] := there
      obtain ⟨inner, rfl, begins⟩ := begins_enclosed (by decide) (by decide) there
      exact opensWith_passphrase.yields begins (by simp)
    · refine opensWith_noData.yields ((answers_time time).right text there).begins fun c first => ?_
      obtain rfl := Set.mem_singleton_iff.1 there
      refine decide_eq_false ?_
      rintro rfl
      cases time with
      | none => simp [sheet, Json.ofOption, Json.chars] at first
      | some n => exact absurd (digit_head _ _ first) (by decide)

theorem answers (passphrase : Option String) (time : Option UInt64) :
    Answers reader (spelling passphrase time) ⟨passphrase, .empty, time⟩ :=
  Record.answers (sound passphrase time)

end CryptoInput
end SerialDispatch
