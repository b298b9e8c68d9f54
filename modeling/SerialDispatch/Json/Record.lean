import SerialDispatch.Json.Reader

/-!
# Records and choices in JSON

A record is an object whose members may come in any order, or the array of all its members in their
own order. Members of other names are passed over. A member that comes twice is refused where its
name is met the second time; members that never come are missed at the closing brace.

A choice is the name of an alternative without content, or an object with one member: the name of an
alternative and its content, `null` where there is none.
-/
namespace SerialDispatch

/-- The members of a record, by an index type: their order, names, types and readers. -/
structure Record (ι : Type) where
  order : List ι
  name : ι → String
  Value : ι → Type
  read : (i : ι) → Reader (Value i)

namespace Record

variable {ι : Type} [DecidableEq ι] (R : Record ι)

/-- The members read so far. -/
abbrev Slots : Type := (i : ι) → Option (R.Value i)

def none : R.Slots := fun _ => Option.none

def put (slots : R.Slots) (i : ι) (v : R.Value i) : R.Slots := fun j =>
  if h : i = j then some (h ▸ v) else slots j

@[simp] theorem put_self (slots : R.Slots) (i : ι) (v : R.Value i) :
    R.put slots i v i = some v := by
  simp [put]

theorem put_of_ne (slots : R.Slots) {i j : ι} (v : R.Value i) (h : i ≠ j) :
    R.put slots i v j = slots j := by
  simp [put, h]

/-- The member of this name. -/
def member? (name : String) : Option ι := R.order.find? fun i => R.name i == name

/-- One member of an object, its name read. -/
def member (slots : R.Slots) (name : String) : Reader R.Slots := fun cs =>
  match R.member? name with
  | some i =>
    if (slots i).isSome then .error .duplicateField
    else do
      let (v, rest) ← R.read i (← Reader.punctuation ':' cs)
      return (R.put slots i v, rest)
  | Option.none => do
    let (_, rest) ← Reader.skip (← Reader.punctuation ':' cs)
    return (slots, rest)

/-- Members up to the closing brace. The first argument bounds their number. -/
def membersFrom : Nat → R.Slots → Reader R.Slots
  | 0, _, _ => .error .malformed
  | n + 1, slots, cs => do
    let (name, rest) ← Reader.string cs
    let (slots, rest) ← R.member slots name rest
    match Reader.trim rest with
    | '\x7d' :: rest => return (slots, rest)
    | ',' :: rest => membersFrom n slots rest
    | _ => throw .malformed

/-- The members of an object, its opening brace read. -/
def members : Reader R.Slots := fun cs =>
  match Reader.trim cs with
  | '\x7d' :: rest => .ok (R.none, rest)
  | _ => R.membersFrom cs.length R.none cs

/-- The values of these members in order, up to the closing bracket. -/
def elements : List ι → R.Slots → Reader R.Slots
  | [], slots, cs => do return (slots, ← Reader.punctuation ']' cs)
  | [i], slots, cs => do
    let (v, rest) ← R.read i cs
    return (R.put slots i v, ← Reader.punctuation ']' rest)
  | i :: rest, slots, cs => do
    let (v, more) ← R.read i cs
    elements rest (R.put slots i v) (← Reader.punctuation ',' more)

def slots : Reader R.Slots := fun cs =>
  match Reader.trim cs with
  | '\x7b' :: rest => R.members rest
  | '[' :: rest => R.elements R.order R.none rest
  | _ => .error .malformed

/-- Reads a record and makes a value of its members. -/
def reader {α : Type} (build : R.Slots → Except DecodeError α) : Reader α := fun cs => do
  let (slots, rest) ← R.slots cs
  return (← build slots, rest)

end Record

/-- The value of a member that has to be there. -/
def required {α : Type} : Option α → Except DecodeError α
  | some a => .ok a
  | none => .error .missingField

/-- The alternatives of a choice by name: those without content, and those with a reader of it. -/
structure Choice (α : Type) where
  plain : List (String × α)
  laden : List (String × Reader α)

namespace Choice

variable {α : Type} (C : Choice α)

/-- The content of the alternative of this name, its colon not yet read. -/
def content (name : String) : Reader α := fun cs =>
  match C.plain.lookup name, C.laden.lookup name with
  | some a, _ => do
    let (_, rest) ← Reader.null (← Reader.punctuation ':' cs)
    return (a, rest)
  | none, some read => do read (← Reader.punctuation ':' cs)
  | none, none => .error .unknownVariant

/-- The name of an alternative without content, standing alone. -/
def bare : Reader α := fun cs => do
  let (name, rest) ← Reader.string cs
  match C.plain.lookup name, C.laden.lookup name with
  | some a, _ => return (a, rest)
  | none, some _ => throw .malformed
  | none, none => throw .unknownVariant

def reader : Reader α := fun cs =>
  match Reader.trim cs with
  | '"' :: _ => C.bare cs
  | '\x7b' :: rest => do
    let (name, rest) ← Reader.string rest
    let (a, rest) ← C.content name rest
    return (a, ← Reader.punctuation '\x7d' rest)
  | _ => .error .malformed

end Choice
end SerialDispatch
