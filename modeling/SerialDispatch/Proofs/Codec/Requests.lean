import Mathlib.Data.List.Permutation
import SerialDispatch.Proofs.Codec.Spellings

/-!
# The spellings of a request

In an object the kind and the payload come in any order. A payload that comes before the kind is
checked where it stands and decoded there afterwards, with the same outcome as behind the kind
(`yields_object`); in an array the kind is its bare name, and comes first. Main statement:
`Request.answers`.
-/
namespace SerialDispatch
open Reader Texts Spelling

namespace Kind

theorem answers_name (k : Kind) : Answers named.reader (.plain k.name) k := by
  apply Choice.answers_plain
  cases k <;> decide

theorem answers_bare (k : Kind) : Answers named.bare (.written (.string k.name)) k := by
  have known : named.plain.lookup k.name = some k := by cases k <;> decide
  have reads : Reads named.bare (Json.string k.name).chars k := by
    refine ⟨(yields_string k.name).begins, fun rest _ => ?_⟩
    rw [Json.chars, Choice.bare, string_quoted]
    simp only [bind, Except.bind, known]
    rfl
  exact (reads.yields Choice.trims_bare).answers

end Kind

theorem Payload.checked (p : Payload) : p.spelling.Checked (Json.maxDepth - 1) := by
  have number : ∀ b : UInt8, Json.Checked 124 (Json.nat b.toNat).chars := fun b => by
    have checked := Json.checked_number 124 b.toUInt64
    rwa [UInt8.toNat_toUInt64] at checked
  have bytes : ∀ data : Bytes, data.spelling.Checked 125 := fun data => by
    refine checked_list fun s given => ?_
    obtain ⟨b, -, rfl⟩ := List.mem_map.1 given
    exact checked_written (number b)
  refine checked_record fun f given => ?_
  obtain rfl := List.mem_singleton.1 given
  refine ⟨bytes p.data, ?_⟩
  rintro text ⟨data, there⟩
  exact (bytes data).right text there

namespace Request

section Objects

/-- A member of a request, with what comes of reading its value. -/
inductive Reading where
  | kind (k : Kind)
  | payload (outcome : Except DecodeError Payload)

namespace Reading

def part : Reading → Part
  | kind _ => .kind
  | payload _ => .payload

def name : Reading → String
  | kind _ => "kind"
  | payload _ => "payload"

/-- The value is read. -/
def IsRead : Reading → Prop
  | kind _ => True
  | payload outcome => ∃ p, outcome = .ok p

theorem ofName?_name (r : Reading) : Part.ofName? r.name = some r.part := by
  cases r <;> rfl

/-- The text of a value. A payload may be read before the kind, so it is a value of any form. -/
def Holds (value : List Char) : Reading → Prop
  | kind k => Yields Kind.named.reader value (.ok k)
  | payload outcome => Yields Payload.reader value outcome ∧
      Json.Checked (Json.maxDepth - 1) value

end Reading

/-- What the text of a member is to a request: one of its members, or another one. -/
def Stands : List Char → Option Reading → Prop :=
  Standing Reading.name (fun value r => r.Holds value) (Part.ofName? · = none)

/-- These members are still to come, with others between them, and then the closing brace. -/
def Ahead (rest : List Char) (later : List Reading) (cs : List Char) : Prop :=
  ∃ items ts text, items.reduceOption = later ∧ List.Forall₂ Stands ts items ∧
    text ∈ behind '\x7d' (fixed ts) ∧ cs = text ++ rest

/-- The next member that makes the request, its name read, or else the end of the object. -/
def Finds (rest : List Char) : List Reading → Except DecodeError (Option Part × List Char) → Prop
  | [], outcome => outcome = .ok (none, rest)
  | r :: later, outcome => ∃ gap gap' value others, AllBlank gap ∧ AllBlank gap' ∧ r.Holds value ∧
      Ahead rest later others ∧
        outcome = .ok (some r.part, gap ++ ':' :: (gap' ++ (value ++ others)))

variable {t text rest cs gap : List Char} {ts : List (List Char)} {item : Option Reading}
variable {items : List (Option Reading)} {later : List Reading}

theorem Ahead.ends (ahead : Ahead rest later cs) : Ends cs := by
  obtain ⟨items, ts, text, -, -, there, rfl⟩ := ahead
  exact ends_behind (.inr rfl) there rest

theorem nextPart_brace (blank : AllBlank gap) (n : Nat) (later : Bool) (rest : List Char) :
    nextPart (n + 1) later (gap ++ '\x7d' :: rest) = .ok (none, rest) := by
  rw [nextPart, trim_blanks_cons blank (by decide)]
  rfl

/-- What comes of a name: its member is the next one, or is passed over. -/
def named (n : Nat) (found : String × List Char) : Except DecodeError (Option Part × List Char) :=
  match Part.ofName? found.1 with
  | some part => .ok (some part, found.2)
  | none => punctuation ':' found.2 >>= fun cs => skip cs >>= fun after => nextPart n true after.2

theorem nextPart_quote (blank : AllBlank gap) (n : Nat) (more : List Char) :
    nextPart (n + 1) false (gap ++ '"' :: more) = string ('"' :: more) >>= named n := by
  rw [nextPart, trim_blanks_cons blank (by decide)]
  split
  · rename_i same
    exact absurd (List.cons.inj same).1 (by decide)
  · rfl

theorem nextPart_comma (blank : AllBlank gap) (n : Nat) (cs : List Char) :
    nextPart (n + 1) true (gap ++ ',' :: cs) = string cs >>= named n := by
  rw [nextPart, trim_blanks_cons blank (by decide)]
  split
  · rename_i same
    exact absurd (List.cons.inj same).1 (by decide)
  · rfl

/-- Behind a comma the next member is read as the first one is. -/
theorem nextPart_next (stands : Stands t item) {gap' : List Char} (blank : AllBlank gap)
    (blank' : AllBlank gap') (n : Nat) (cs : List Char) :
    nextPart (n + 1) true (gap ++ ',' :: (gap' ++ (t ++ cs))) =
      nextPart (n + 1) false (gap' ++ (t ++ cs)) := by
  obtain ⟨tail, rfl⟩ := Standing.opens stands
  rw [List.cons_append, nextPart_comma blank, nextPart_quote blank', trims_string.blanks blank']

theorem nextPart_name (blank : AllBlank gap) (n : Nat) (name : String) (cs : List Char) :
    nextPart (n + 1) false (gap ++ (Json.quoted name.toList ++ cs)) = named n (name, cs) := by
  obtain ⟨more, start⟩ : ∃ more, Json.quoted name.toList ++ cs = '"' :: more := ⟨_, rfl⟩
  rw [start, nextPart_quote blank, ← start, string_quoted]
  rfl

theorem nextPart_own {r : Reading} (stands : Stands t (some r)) (blank : AllBlank gap)
    (ahead : Ahead rest later cs) (n : Nat) :
    Finds rest (r :: later) (nextPart (n + 1) false (gap ++ (t ++ cs))) := by
  obtain ⟨_, holds, there⟩ := stands
  obtain ⟨gap', gap'', value, blank', blank'', rfl, rfl⟩ := mem_member.1 there
  refine ⟨gap', gap'', value, cs, blank', blank'', holds, ahead, ?_⟩
  rw [List.append_assoc, nextPart_name blank, named, r.ofName?_name, List.append_assoc,
    List.cons_append, List.append_assoc]

theorem nextPart_other (stands : Stands t none) (blank : AllBlank gap) (ends : Ends cs) (n : Nat) :
    nextPart (n + 1) false (gap ++ (t ++ cs)) = nextPart n true cs := by
  obtain ⟨name, value, foreign, passes, there⟩ := stands
  obtain ⟨gap', gap'', _, blank', blank'', rfl, rfl⟩ := mem_member.1 there
  rw [List.append_assoc, nextPart_name blank, named, foreign, List.append_assoc, List.cons_append,
    List.append_assoc, punctuation_blanks blank' (by decide)]
  show (skip (gap'' ++ (_ ++ cs)) >>= fun after => nextPart n true after.2) = _
  rw [passes.gives gap'' cs blank'' ends]
  rfl

/-- Up to the next member that makes the request, the others are passed over. -/
theorem nextPart_finds (stands : Stands t item) (others : List.Forall₂ Stands ts items)
    (there : text ∈ behind '\x7d' (fixed ts)) {n : Nat} (enough : ts.length + 1 < n)
    (blank : AllBlank gap) :
    Finds rest (item :: items).reduceOption (nextPart n false (gap ++ (t ++ (text ++ rest)))) := by
  have ahead : Ahead rest items.reduceOption (text ++ rest) :=
    ⟨items, ts, text, rfl, others, there, rfl⟩
  induction others generalizing t item text n gap with
  | nil =>
    obtain ⟨n, rfl⟩ : ∃ m, n = m + 2 := ⟨n - 2, by omega⟩
    cases item with
    | some r => exact nextPart_own stands blank ahead _
    | none =>
      rw [nextPart_other stands blank ahead.ends]
      obtain ⟨gap', blank', rfl⟩ := mem_behind_nil.1 there
      rw [List.append_assoc]
      exact nextPart_brace blank' n true rest
  | @cons u item' ts items second others ih =>
    obtain ⟨n, rfl⟩ : ∃ m, n = m + 2 := ⟨n - 2, by omega⟩
    cases item with
    | some r => exact nextPart_own stands blank ahead _
    | none =>
      rw [nextPart_other stands blank ahead.ends]
      obtain ⟨gap', gap'', more, blank', blank'', still, rfl⟩ := mem_behind_fixed there
      simp only [List.append_assoc, List.cons_append, nextPart_next second blank' blank'']
      exact ih second still (by simp at enough; omega) blank''
        ⟨items, ts, more, rfl, others, still, rfl⟩

theorem part_ahead (ahead : Ahead rest later cs) : Finds rest later (part true cs) := by
  obtain ⟨items, ts, text, rfl, each, there, rfl⟩ := ahead
  have enough := length_behind there
  cases each with
  | nil =>
    obtain ⟨gap, blank, rfl⟩ := mem_behind_nil.1 there
    rw [part, List.append_assoc]
    exact nextPart_brace blank _ true rest
  | cons first others =>
    obtain ⟨gap, gap', more, blank, blank', still, rfl⟩ := mem_behind_fixed there
    simp only [part, List.append_assoc, List.cons_append, nextPart_next first blank blank']
    refine nextPart_finds first others still ?_ blank'
    simp only [List.length_append, List.length_cons] at enough ⊢
    omega

theorem part_opening (each : List.Forall₂ Stands ts items)
    (there : '\x7b' :: text ∈ object (fixed ts)) (rest : List Char) :
    Finds rest items.reduceOption (part false (text ++ rest)) := by
  cases each with
  | nil =>
    obtain ⟨gap, blank, same⟩ := mem_enclosed_nil.1 there
    obtain rfl := (List.cons.inj same).2
    rw [part, List.append_assoc]
    exact nextPart_brace blank _ false rest
  | cons first others =>
    obtain ⟨gap, t, more, blank, rfl, still, same⟩ := mem_enclosed_cons.1 there
    obtain rfl := (List.cons.inj same).2
    have enough := length_behind still
    rw [part, List.append_assoc, List.append_assoc]
    exact nextPart_finds first others still (by simp only [List.length_append]; omega) blank

/-- A request is complete where the object ends. -/
def complete (r : Request) : List Reading → Except DecodeError Request
  | [] => .ok r
  | _ :: _ => .error .duplicateField

/-- A kind and a payload make a request, whichever comes first. -/
def collect : List Reading → Except DecodeError Request
  | .kind k :: .payload outcome :: later => outcome >>= fun p => complete ⟨k, p⟩ later
  | .payload outcome :: .kind k :: later => outcome >>= fun p => complete ⟨k, p⟩ later
  | _ :: _ :: _ => .error .duplicateField
  | _ => .error .missingField

theorem close_ahead (ahead : Ahead rest later cs) (r : Request) :
    close r cs = (complete r later).map fun r => (r, rest) := by
  have finds := part_ahead ahead
  cases later with
  | nil =>
    rw [close, show part true cs = _ from finds]
    rfl
  | cons next later =>
    obtain ⟨_, _, _, _, -, -, -, -, found⟩ := finds
    rw [close, found]
    rfl

/-- Behind a kind the payload is decoded where it stands. -/
theorem kindFirst_ahead {gap' value : List Char} {k : Kind} (blank : AllBlank gap)
    (blank' : AllBlank gap') (yields : Yields Kind.named.reader value (.ok k))
    (ahead : Ahead rest later cs) : kindFirst (gap ++ ':' :: (gap' ++ (value ++ cs))) =
      (collect (.kind k :: later)).map fun r => (r, rest) := by
  have kind := yields.gives gap' cs blank' ahead.ends
  have finds := part_ahead ahead
  rw [kindFirst, punctuation_blanks blank (by decide)]
  simp only [bind, Except.bind, kind, Except.map]
  cases later with
  | nil =>
    rw [show part true cs = _ from finds]
    rfl
  | cons next later =>
    obtain ⟨gap, gap', value, others, blank, blank', holds, still, found⟩ := finds
    rw [found]
    cases next with
    | kind _ => rfl
    | payload outcome =>
      have payload := holds.1.gives gap' others blank' still.ends
      simp only [Reading.part, punctuation_blanks blank (show isBlank ':' = false by decide),
        payload]
      cases outcome with
      | error e => rfl
      | ok p => exact close_ahead still ⟨k, p⟩

/-- Before a kind the payload is checked, and decoded once the kind is known. -/
theorem payloadFirst_ahead {gap' value : List Char} {outcome : Except DecodeError Payload}
    (blank : AllBlank gap) (blank' : AllBlank gap') (yields : Yields Payload.reader value outcome)
    (checked : Json.Checked (Json.maxDepth - 1) value) (ahead : Ahead rest later cs) :
    payloadFirst (gap ++ ':' :: (gap' ++ (value ++ cs))) =
      (collect (.payload outcome :: later)).map fun r => (r, rest) := by
  obtain ⟨json, checked⟩ := checked
  have passed := checked.gives gap' cs blank' ahead.ends
  have payload := yields.gives gap' cs blank' ahead.ends
  have finds := part_ahead ahead
  rw [payloadFirst, punctuation_blanks blank (by decide)]
  simp only [bind, Except.bind, passed, Except.map]
  cases later with
  | nil =>
    rw [show part true cs = _ from finds]
    rfl
  | cons next later =>
    obtain ⟨gap, gap', value, others, blank, blank', holds, still, found⟩ := finds
    rw [found]
    cases next with
    | payload _ => rfl
    | kind k =>
      have kind := holds.gives gap' others blank' still.ends
      simp only [Reading.part, punctuation_blanks blank (show isBlank ':' = false by decide), kind,
        Except.map, payload]
      cases outcome with
      | error e => rfl
      | ok p => exact close_ahead still ⟨k, p⟩

/-- An object yields what its members make together. -/
theorem yields_object (each : List.Forall₂ Stands ts items) (there : text ∈ object (fixed ts)) :
    Yields reader text (collect items.reduceOption) := by
  obtain ⟨inner, rfl, begins⟩ := begins_enclosed (by decide) (by decide) there
  refine ⟨begins, fun blanks rest blank _ => ?_⟩
  have finds := part_opening each there rest
  rw [reader, List.cons_append, trim_blanks_cons blank (by decide)]
  simp only [bind, Except.bind]
  generalize items.reduceOption = rs at finds ⊢
  cases rs with
  | nil =>
    rw [show part false _ = _ from finds]
    rfl
  | cons first later =>
    obtain ⟨gap, gap', value, others, blank, blank', holds, ahead, found⟩ := finds
    rw [found]
    cases first with
    | kind k => exact kindFirst_ahead blank blank' holds ahead
    | payload outcome => exact payloadFirst_ahead blank blank' holds.1 holds.2 ahead

end Objects
section Arrays

/-- The array of a request: the bare name of the kind, and the payload. -/
def listed : Record Part where
  order := [.kind, .payload]
  name
    | .kind => "kind"
    | .payload => "payload"
  Value
    | .kind => Kind
    | .payload => Payload
  read
    | .kind => Kind.named.bare
    | .payload => Payload.reader

def build (slots : listed.Slots) : Except DecodeError Request := do
  return ⟨← required (slots .kind), ← required (slots .payload)⟩

/-- In an array, a request is read as a record is. -/
theorem reader_bracket {blanks : List Char} (blank : AllBlank blanks) (cs : List Char) :
    reader (blanks ++ '[' :: cs) = listed.reader build (blanks ++ '[' :: cs) := by
  have shown := trim_blanks_cons blank (show isBlank '[' = false by decide) cs
  rw [reader, Record.reader, Record.slots, shown]
  show (do
    let kind ← Kind.named.bare cs
    let payload ← Payload.reader (← punctuation ',' kind.2)
    return ((⟨kind.1, payload.1⟩ : Request), ← punctuation ']' payload.2)) = (do
      let found ← (do
        let kind ← Kind.named.bare cs
        let payload ← Payload.reader (← punctuation ',' kind.2)
        return (listed.put (listed.put listed.none .kind kind.1) .payload payload.1,
          ← punctuation ']' payload.2))
      return (← build found.1, found.2))
  cases Kind.named.bare cs with
  | error e => rfl
  | ok kind =>
    simp only [bind, Except.bind]
    cases punctuation ',' kind.2 with
    | error e => rfl
    | ok cs =>
      simp only
      cases Payload.reader cs with
      | error e => rfl
      | ok payload =>
        simp only
        cases punctuation ']' payload.2 <;> rfl

def sheet (r : Request) : listed.Sheet where
  spell
    | .kind => fun k : Kind => .written (.string k.name)
    | .payload => Payload.spelling
  values
    | .kind => r.kind
    | .payload => r.payload
  omissible _ := false
  missing _ := .malformed

theorem sound (r : Request) : r.sheet.Sound build r where
  named i := by cases i <;> rfl
  apart := by decide
  nonempty := by decide
  answers
    | .kind => Kind.answers_bare
    | .payload => Payload.answers
  bracket
    | .kind => Choice.opensWith_bare.bracket rfl
    | .payload => ((Record.opensWith_reader _).map Payload.mk).bracket rfl
  built slots filled := by
    rw [build, (filled .kind).resolve_right (by simp [sheet]),
      (filled .payload).resolve_right (by simp [sheet])]
    rfl
  shifted := by
    refine ⟨fun text there => .inl ?_, rfl⟩
    have begins := ((Payload.answers r.payload).right text there).begins
    obtain ⟨c, inner, rfl, first⟩ := opens_shapes there
    refine Choice.opensWith_bare.yields begins fun d same => ?_
    obtain rfl : c = d := Option.some.inj same
    rcases first with rfl | rfl <;> rfl

end Arrays

def members (r : Request) : List Field :=
  [.of "kind" (fun k : Kind => .plain k.name) r.kind, .of "payload" Payload.spelling r.payload]

/-- The kind by its bare name, and the payload. -/
def elements (r : Request) : List Field :=
  [.of "kind" (fun k : Kind => .written (.string k.name)) r.kind,
    .of "payload" Payload.spelling r.payload]

def spelling (r : Request) : Spelling := .shapes r.members r.elements

section Answers

variable {r : Request} {text : List Char} {items : List (Option Field)} {left : List Field}

/-- In an array, a request answers like the record of its elements. -/
theorem yields_elements {outcome : Except DecodeError Request} {ls : List (Language Char)}
    (there : text ∈ array ls) (yields : Yields (listed.reader build) text outcome) :
    Yields reader text outcome := by
  obtain ⟨inner, rfl, -⟩ := begins_enclosed (by decide) (by decide) there
  refine ⟨yields.begins, fun blanks rest blank ends => ?_⟩
  rw [List.cons_append, reader_bracket blank]
  exact yields.gives blanks rest blank ends

/-- What an object yields, by what is known of its members. -/
theorem exists_readings {P : Reading → Prop}
    (known : ∀ f ∈ items.reduceOption, ∀ u ∈ f.value.right,
      ∃ reading : Reading, f.name = reading.name ∧ reading.Holds u ∧ P reading)
    (there : text ∈ objectOf (r.members.map Field.name) items) :
    ∃ rs, rs.map Reading.name = items.reduceOption.map Field.name ∧ (∀ reading ∈ rs, P reading) ∧
      Yields reader text (collect rs) := by
  have foreign : ∀ other ∉ r.members.map Field.name, Part.ofName? other = none := by
    intro other unlisted
    have apart : other ≠ "kind" ∧ other ≠ "payload" := by
      simpa [members, Field.of] using unlisted
    rw [Part.ofName?, if_neg apart.1, if_neg apart.2]
  obtain ⟨ts, each, there⟩ := exists_enclosed there
  obtain ⟨readings, stand, same, holds⟩ := exists_standing foreign known each
  exact ⟨_, same, holds, yields_object stand there⟩

/-- No member of a request may be left out. -/
theorem left_eq_nil {kept fields : List Field} (all : (kept ++ left).Perm fields)
    (may : ∀ f ∈ left, f.omissible = true) (never : ∀ f ∈ fields, f.omissible = false) :
    left = [] := by
  refine List.eq_nil_iff_forall_not_mem.2 fun f there => ?_
  have := never f (all.subset (List.mem_append_right kept there))
  rw [may f there] at this
  cases this

/-- A kind and a payload, in any order and among others. -/
theorem yields_pair {payload : Field} {outcome : Except DecodeError Payload}
    (name : payload.name = "payload")
    (holds : ∀ t ∈ payload.value.right, (Reading.payload outcome).Holds t)
    (order : items.reduceOption.Perm
      [.of "kind" (fun k : Kind => .plain k.name) r.kind, payload])
    (there : text ∈ objectOf (r.members.map Field.name) items) :
    Yields reader text (outcome.map fun p => ⟨r.kind, p⟩) := by
  obtain ⟨rs, same, known, yields⟩ := exists_readings
    (P := fun reading => reading = .kind r.kind ∨ reading = .payload outcome)
    (fun f given u inside => by
      rcases List.mem_pair.1 (order.subset given) with rfl | rfl
      · exact ⟨.kind r.kind, rfl, (Kind.answers_name r.kind).right u inside, .inl rfl⟩
      · exact ⟨.payload outcome, name, holds u inside, .inr rfl⟩) there
  have isKind : ∀ reading ∈ rs, reading.name = "kind" → reading = .kind r.kind := by
    intro reading there called
    refine (known reading there).resolve_right ?_
    rintro rfl
    simp [Reading.name] at called
  have isPayload : ∀ reading ∈ rs, reading.name = "payload" → reading = .payload outcome := by
    intro reading there called
    refine (known reading there).resolve_left ?_
    rintro rfl
    simp [Reading.name] at called
  suffices collect rs = outcome.map fun p => ⟨r.kind, p⟩ by rwa [this] at yields
  have names := order.map Field.name
  rw [← same, List.map_cons, List.map_singleton, name] at names
  rcases List.perm_pair.1 names with kindFirst | payloadFirst
  · obtain ⟨k, _, rfl, first, later⟩ := List.map_eq_cons_iff.1 kindFirst
    obtain ⟨p, rfl, second⟩ := List.map_eq_singleton_iff.1 later
    rw [isKind k (by simp) first, isPayload p (by simp) second]
    cases outcome <;> rfl
  · obtain ⟨p, _, rfl, first, later⟩ := List.map_eq_cons_iff.1 payloadFirst
    obtain ⟨k, rfl, second⟩ := List.map_eq_singleton_iff.1 later
    rw [isPayload p (by simp) first, isKind k (by simp) second]
    cases outcome <;> rfl

/-- Of more than two members one comes twice. -/
theorem collect_repeated {rs : List Reading} (read : ∀ reading ∈ rs, reading.IsRead)
    (more : 2 < rs.length) : collect rs = .error .duplicateField := by
  match rs, more with
  | .kind _ :: .kind _ :: _ :: _, _ => rfl
  | .payload _ :: .payload _ :: _ :: _, _ => rfl
  | .kind _ :: .payload _ :: _ :: _, _ =>
    obtain ⟨p, rfl⟩ := read _ (.tail _ (.head _))
    rfl
  | .payload _ :: .kind _ :: _ :: _, _ =>
    obtain ⟨p, rfl⟩ := read _ (.head _)
    rfl

/-- A member with any value that it can have. -/
theorem holds_values {f : Field} (given : f ∈ r.members) {u : List Char} (inside : u ∈ f.values) :
    ∃ reading : Reading, f.name = reading.name ∧ reading.Holds u ∧ reading.IsRead := by
  rcases List.mem_pair.1 given with rfl | rfl
  · obtain ⟨k, inside⟩ := inside
    exact ⟨.kind k, rfl, (Kind.answers_name k).right u inside, trivial⟩
  · obtain ⟨p, inside⟩ := inside
    exact ⟨.payload (.ok p), rfl,
      ⟨(Payload.answers p).right u inside, p.checked.right u inside⟩, p, rfl⟩

theorem right_subset_values {f : Field} (given : f ∈ r.members) :
    ∀ u ∈ f.value.right, u ∈ f.values := by
  rcases List.mem_pair.1 given with rfl | rfl
  · exact fun u inside => ⟨r.kind, inside⟩
  · exact fun u inside => ⟨r.payload, inside⟩

theorem yields_repeated {kept again : List Field} (all : (kept ++ left).Perm r.members)
    (may : ∀ f ∈ left, f.omissible = true) (any : again ≠ []) (twice : again ⊆ kept)
    (order : items.reduceOption.Perm (kept ++ again.map Field.again))
    (there : text ∈ objectOf (r.members.map Field.name) items) :
    Yields reader text (.error .duplicateField) := by
  obtain rfl := left_eq_nil all may (by simp [members, Field.of])
  rw [List.append_nil] at all
  obtain ⟨rs, same, read, yields⟩ := exists_readings
    (fun f given u inside => by
      rcases List.mem_append.1 (order.subset given) with first | second
      · exact holds_values (all.subset first) (right_subset_values (all.subset first) u inside)
      · obtain ⟨g, member, rfl⟩ := List.mem_map.1 second
        exact holds_values (all.subset (twice member)) inside) there
  have more : 2 < rs.length := by
    have length := order.length_eq
    have both := all.length_eq
    have positive := List.length_pos_iff.2 any
    have counted := congrArg List.length same
    rw [List.length_map, List.length_map] at counted
    rw [List.length_append, List.length_map] at length
    rw [counted, length, both]
    simp only [members, List.length_cons, List.length_nil]
    omega
  rwa [collect_repeated read more] at yields

theorem yields_spoilt {before after : List Field} {f : Field} {e : DecodeError}
    (here : r.members = before ++ f :: after)
    (there : text ∈ objects (before ++ f.spoilt e :: after)) : Yields reader text (.error e) := by
  obtain ⟨items, left, all, may, there⟩ := there
  rcases List.cons_eq_append_iff.1 here with ⟨rfl, first⟩ | ⟨others, rfl, later⟩
  · -- A kind has no spelling with a fault.
    obtain ⟨rfl, rfl⟩ := List.cons.inj first
    obtain rfl := left_eq_nil all may (by simp [Field.of, Field.spoilt])
    rw [List.append_nil] at all
    obtain ⟨u, none⟩ := exists_value there _ (all.symm.subset (.head _))
    exact absurd none (Language.notMem_zero u)
  · rcases List.cons_eq_append_iff.1 later with ⟨rfl, second⟩ | ⟨others, rfl, last⟩
    · obtain ⟨rfl, rfl⟩ := List.cons.inj second
      obtain rfl := left_eq_nil all may (by simp [Field.of, Field.spoilt])
      rw [List.append_nil] at all
      exact yields_pair rfl (fun u inside => ⟨(Payload.answers r.payload).wrong e u inside,
        r.payload.checked.wrong e u inside⟩) all there
    · exact absurd last (by simp)

/-- A request answers its spellings. -/
theorem answers (r : Request) : Answers reader r.spelling r := by
  have whole : ∀ u ∈ r.payload.spelling.right, (Reading.payload (.ok r.payload)).Holds u :=
    fun u inside => ⟨(Payload.answers r.payload).right u inside, r.payload.checked.right u inside⟩
  constructor
  · rintro text (⟨items, left, all, may, there⟩ | there)
    · obtain rfl := left_eq_nil all may (by simp [members, Field.of])
      rw [List.append_nil] at all
      exact yields_pair rfl whole all there
    · exact yields_elements there (Record.yields_arrayOf r.sound there)
  · intro e text fault
    cases fault with
    | repeated all may some twice order there =>
      exact yields_repeated all may some twice order there
    | spoiltMember here there => exact yields_spoilt here there
    | overlong some each there =>
      exact yields_elements there (Record.yields_overlong r.sound some there)
    | lacking here there => exact yields_elements there (Record.yields_lacking r.sound here there)
    | spoiltElement here there =>
      exact yields_elements there (Record.yields_spoilt_array r.sound here there)

end Answers

end Request
end SerialDispatch
