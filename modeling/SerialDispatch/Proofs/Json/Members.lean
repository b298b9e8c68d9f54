import SerialDispatch.Json.Record
import SerialDispatch.Proofs.Json.Written

/-!
# Reading records and choices that were written

A record is written as an object of members, a choice as a name, alone or with its content. Both can
be read where their parts can: `Record.reads_object`, `Choice.reads_bare` and `Choice.reads_laden`.
-/
namespace SerialDispatch
open Reader

namespace Record

section

variable {ι : Type} {R : Record ι}

/-- Every member is found by its name. -/
def Named [DecidableEq ι] (R : Record ι) : Prop := ∀ i, R.member? (R.name i) = some i

/-- A member with its value and the written form of the value. -/
structure Entry (R : Record ι) where
  index : ι
  json : Json
  value : R.Value index

def Entry.member (e : R.Entry) : String × Json := (R.name e.index, e.json)

def Entry.Reads (e : R.Entry) : Prop := Reader.Reads (R.read e.index) e.json.chars e.value

theorem moreMembers_cons (e : R.Entry) (entries : List R.Entry) :
    Json.moreMembers ((e :: entries).map Entry.member) =
      ',' :: Json.membersChars ((e :: entries).map Entry.member) := by
  rw [List.map_cons, Entry.member, Json.moreMembers, Json.membersChars]
  rfl

theorem membersChars_cons (e : R.Entry) (entries : List R.Entry) (rest : List Char) :
    Json.membersChars ((e :: entries).map Entry.member) ++ rest =
      Json.quoted (R.name e.index).toList ++
        ':' :: (e.json.chars ++ (Json.moreMembers (entries.map Entry.member) ++ rest)) := by
  rw [List.map_cons, Entry.member, Json.membersChars]
  simp

theorem length_lt_membersChars (e : R.Entry) (entries : List R.Entry) :
    entries.length < (Json.membersChars ((e :: entries).map Entry.member)).length := by
  induction entries generalizing e with
  | nil =>
    have text := membersChars_cons e [] []
    rw [List.append_nil] at text
    rw [text]
    simp only [List.length_append, List.length_cons, List.length_nil]
    omega
  | cons d entries ih =>
    have others := ih d
    have text := membersChars_cons e (d :: entries) []
    rw [List.append_nil, moreMembers_cons] at text
    rw [text]
    simp only [List.length_append, List.length_cons]
    omega

end

variable {ι : Type} [DecidableEq ι] {R : Record ι} {α : Type}

/-- Members put in one after the other. -/
def fill (slots : R.Slots) (entries : List R.Entry) : R.Slots :=
  entries.foldl (fun slots e => R.put slots e.index e.value) slots

variable {slots : R.Slots} {e : R.Entry} {entries : List R.Entry} {rest : List Char}

theorem member_chars (named : R.Named) (reads : e.Reads) (free : slots e.index = Option.none)
    (ends : Ends rest) : R.member slots (R.name e.index) (':' :: (e.json.chars ++ rest)) =
      .ok (R.put slots e.index e.value, rest) := by
  have value := reads.takes rest ends
  rw [member, named e.index]
  simp only [free, punctuation_cons (show isBlank ':' = false by decide), bind, Except.bind, value]
  rfl

/-- Members are read one after the other, the last one up to the closing brace, each into a slot
that is still free. -/
theorem membersFrom_chars (named : R.Named) (slots : R.Slots) (e : R.Entry) (entries : List R.Entry)
    (reads : ∀ d ∈ e :: entries, d.Reads) (apart : ((e :: entries).map Entry.index).Nodup)
    (free : ∀ d ∈ e :: entries, slots d.index = Option.none) (n : Nat) (enough : entries.length < n)
    (rest : List Char) : R.membersFrom n slots
        (Json.membersChars ((e :: entries).map Entry.member) ++ '\x7d' :: rest) =
      .ok (fill slots (e :: entries), rest) := by
  induction entries generalizing e slots n with
  | nil =>
    obtain ⟨n, rfl⟩ : ∃ m, n = m + 1 := ⟨n - 1, by simp at enough; omega⟩
    have first := member_chars named (reads e List.mem_cons_self) (free e List.mem_cons_self)
      (ends_brace rest)
    rw [membersChars_cons, List.map_nil, Json.moreMembers, List.nil_append, membersFrom,
      string_quoted]
    simp only [bind, Except.bind, first]
    rfl
  | cons d entries ih =>
    obtain ⟨n, rfl⟩ : ∃ m, n = m + 1 := ⟨n - 1, by simp at enough; omega⟩
    have first := member_chars named (reads e List.mem_cons_self) (free e List.mem_cons_self)
      (ends_comma (Json.membersChars ((d :: entries).map Entry.member) ++ '\x7d' :: rest))
    rw [List.map_cons, List.nodup_cons] at apart
    have others := ih (R.put slots e.index e.value) d
      (fun f h => reads f (List.mem_cons_of_mem _ h)) apart.2
      (fun f h => by
        have other : e.index ≠ f.index := fun same => apart.1 (by
          rw [same]
          exact List.mem_map_of_mem h)
        rw [R.put_of_ne slots e.value other]
        exact free f (List.mem_cons_of_mem _ h))
      n (by simp at enough; omega)
    rw [membersChars_cons, moreMembers_cons, List.cons_append, membersFrom, string_quoted]
    simp only [bind, Except.bind, first, trim_cons (show isBlank ',' = false by decide), others]
    rfl

theorem slots_chars (named : R.Named) (reads : ∀ e ∈ entries, e.Reads)
    (apart : (entries.map Entry.index).Nodup) (rest : List Char) :
    R.slots ((Json.object (entries.map Entry.member)).chars ++ rest) =
      .ok (fill R.none entries, rest) := by
  have text : (Json.object (entries.map Entry.member)).chars ++ rest =
      '\x7b' :: (Json.membersChars (entries.map Entry.member) ++ '\x7d' :: rest) := by
    rw [Json.chars]
    simp
  rw [text, Record.slots, trim_cons (by decide)]
  cases entries with
  | nil => rfl
  | cons e entries =>
    have whole := membersFrom_chars named R.none e entries reads apart
      (fun _ _ => rfl)
      (Json.membersChars ((e :: entries).map Entry.member) ++ '\x7d' :: rest).length
      (by
        have := length_lt_membersChars e entries
        rw [List.length_append]
        omega) rest
    have start : ∃ more, Json.membersChars ((e :: entries).map Entry.member) ++ '\x7d' :: rest =
        '"' :: more := ⟨_, membersChars_cons e entries _⟩
    obtain ⟨more, start⟩ := start
    show R.members _ = _
    rw [Record.members, start, trim_cons (by decide), ← start]
    exact whole

/-- A record can be read from the object of its members, in whatever order they stand. -/
theorem reads_object {build : R.Slots → Except DecodeError α} {a : α} (named : R.Named)
    (reads : ∀ e ∈ entries, e.Reads) (apart : (entries.map Entry.index).Nodup)
    (built : build (fill R.none entries) = .ok a) :
    Reader.Reads (R.reader build) (Json.object (entries.map Entry.member)).chars a := by
  constructor
  · exact ⟨'\x7b', _, by rw [Json.chars]; rfl, by decide, by decide⟩
  · intro rest _
    rw [Record.reader, slots_chars named reads apart rest]
    simp only [bind, Except.bind, built]
    rfl

/-- A record of one member can be read where the member can. -/
theorem reads_single {R : Record Unit} {build : R.Slots → Except DecodeError α} {json : Json}
    {v : R.Value ()} {a : α} (order : R.order = [()])
    (reads : Reader.Reads (R.read ()) json.chars v)
    (built : build (R.put R.none () v) = .ok a) :
    Reader.Reads (R.reader build) (Json.object [(R.name (), json)]).chars a := by
  have named : R.Named := by
    intro i
    simp [member?, order]
  have entry : ∀ e ∈ [(⟨(), json, v⟩ : R.Entry)], e.Reads := List.forall_mem_singleton.2 reads
  exact reads_object named entry (List.pairwise_singleton _ _) built

end Record

namespace Choice

variable {α : Type} {C : Choice α} {name : String} {a : α}

/-- An alternative without content can be read from its name. -/
theorem bare_chars (plain : C.plain.lookup name = some a) (rest : List Char) :
    C.bare ((Json.string name).chars ++ rest) = .ok (a, rest) := by
  rw [bare, Json.chars, string_quoted]
  simp only [bind, Except.bind, plain]
  rfl

theorem reads_bare (plain : C.plain.lookup name = some a) :
    Reads C.reader (Json.string name).chars a := by
  constructor
  · exact ⟨'"', _, by rw [Json.chars]; rfl, by decide, by decide⟩
  · intro rest _
    have text : ∃ more, (Json.string name).chars ++ rest = '"' :: more := by
      rw [Json.chars]
      exact ⟨_, rfl⟩
    obtain ⟨more, text⟩ := text
    rw [reader, text, trim_cons (by decide), ← text]
    exact bare_chars plain rest

/-- An alternative with content can be read from the object of its name and the content. -/
theorem reads_laden {read : Reader α} {content : Json} (laden : C.laden.lookup name = some read)
    (only : C.plain.lookup name = none) (reads : Reads read content.chars a) :
    Reads C.reader (Json.object [(name, content)]).chars a := by
  constructor
  · exact ⟨'\x7b', _, by rw [Json.chars]; rfl, by decide, by decide⟩
  · intro rest _
    have text : (Json.object [(name, content)]).chars ++ rest = '\x7b' ::
        (Json.quoted name.toList ++ ':' :: (content.chars ++ '\x7d' :: rest)) := by
      rw [Json.chars, Json.membersChars, Json.moreMembers]
      simp
    have inner := reads.takes ('\x7d' :: rest) (ends_brace rest)
    rw [reader, text, trim_cons (by decide)]
    simp only [bind, Except.bind, string_quoted, Choice.content, only, laden,
      punctuation_cons (show isBlank ':' = false by decide), inner,
      punctuation_cons (show isBlank '\x7d' = false by decide)]
    rfl

end Choice
end SerialDispatch
