import SerialDispatch.Decimal
import SerialDispatch.LogFilter.Callsite
import SerialDispatch.Pattern.Reader
import SerialDispatch.Text.Cut

/-!
# Directives of a log filter

A directive says how much is shown of some log entries. It is written as a level alone; as a target,
with `=` and a level or without, where all is shown; or with a span in brackets behind the target,
or in place of it. In the brackets stands the name of the span, and behind it, in braces, a field
that it has, with `=` and a value or without. A value is a number or a pattern.

A directive is read character by character. Places are counted without the blanks around it, but the
pieces are cut out of the directive as it stands, so that blanks in front of it shift all of them. A
cut may then come to lie within a character.
-/
namespace SerialDispatch

/-- What is shown: nothing, or all that is at least so severe. -/
inductive Threshold where
  | off
  | least (severity : Severity)
  deriving DecidableEq, Repr

namespace Threshold

def admits : Threshold → Severity → Bool
  | .off, _ => false
  | .least bound, severity => bound.rank ≤ severity.rank

/-- All is shown. -/
def all : Threshold := .least .trace

/-- From the least that is shown to the most. -/
def levels : List Threshold :=
  [.off, .least .error, .least .warn, .least .info, .least .debug, all]

/-- The names of the levels. -/
def named : List (String × Threshold) :=
  ["off", "error", "warn", "info", "debug", "trace"].zip levels

/-- A level by its number, or by its name, in capitals or not. -/
def ofText? (text : List Char) : Option Threshold :=
  match Decimal.natural? levels.length text with
  | some n => levels[n]?
  | none => named.lookup (String.ofList (text.map Char.toLower))

end Threshold

/-- Why a filter cannot be read. -/
inductive FilterFault where
  | malformed
  /-- A piece begins or ends within a character. -/
  | splitCharacter
  deriving DecidableEq, Repr

/-- What the value of a field is compared with. -/
inductive FieldValue where
  | number (n : Nat)
  | pattern (text : List Char)
  /-- A truth value, or a number that is not whole or is too small or too large. -/
  | other
  deriving DecidableEq, Repr

namespace FieldValue

def ofText? (text : List Char) : Option FieldValue :=
  match Decimal.natural? UInt64.size text with
  | some n => some (.number n)
  | none =>
    if text = "true".toList || text = "false".toList || Decimal.isReal text then some .other
    else (Pattern.ofText? text).map fun _ => .pattern text

/-- Whether this is the number of a dispatch. -/
def isNumber (v : FieldValue) (id : DispatchId) : Bool :=
  match v with
  | .number n => n = id
  | _ => false

/-- Whether a pattern fits a text: what it matches lasts until the end of the text. -/
def fits (v : FieldValue) (text : String) : Bool :=
  match v with
  | .pattern p => (Pattern.ofText? p).any (·.reachesEnd text.toList)
  | _ => false

end FieldValue

/-- A field that a span has, and its value, if that matters. -/
structure FieldTest where
  name : List Char
  value : Option FieldValue
  deriving DecidableEq, Repr

namespace FieldTest

/-- The name stands before the first `=`, the value between that and the next one. -/
def ofText? (text : List Char) : Option FieldTest :=
  let name := text.takeWhile (· ≠ '=')
  match text.dropWhile (· ≠ '=') with
  | [] => some ⟨name, none⟩
  | _ :: rest => (FieldValue.ofText? (rest.takeWhile (· ≠ '='))).map fun v => ⟨name, some v⟩

/-- Whether a span has the value that is asked for. -/
def admits (t : FieldTest) (s : Span) : Bool :=
  match t.value with
  | none => true
  | some v =>
    (t.name = "dispatch_id".toList && v.isNumber s.id) ||
      (t.name = "kind".toList && v.fits s.kind.name)

end FieldTest

structure Directive where
  /-- The beginning of the targets that it is about. -/
  target : List Char := []
  /-- The name of the spans that it is about. -/
  span : Option (List Char) := none
  field : Option FieldTest := none
  threshold : Threshold := .all
  deriving DecidableEq, Repr

namespace Directive

/-- How far a directive has been read: where the piece begins that is being read, or what may come
next. -/
inductive Reading where
  | start
  | word (first : Nat)
  | span (first : Nat)
  | field (first : Nat)
  | fieldRead
  | spanRead
  | level (first : Nat)
  deriving DecidableEq, Repr

/-- What a directive may begin with, apart from a bracket. -/
def isOpening (c : Char) : Bool := c = '-' || c = ':' || c = '_' || Text.isLetterOrNumber c

def orMalformed {α : Type} : Option α → Except FilterFault α
  | some a => .ok a
  | none => .error .malformed

/-- A piece of a text between two places. -/
def piece (text : List Char) (first last : Nat) : Except FilterFault (List Char) :=
  match Text.between? first last text with
  | some cut => .ok cut
  | none => .error .splitCharacter

/-- The piece of a text behind a place. -/
def ending (text : List Char) (first : Nat) : Except FilterFault (List Char) :=
  match Text.behind? first text with
  | some cut => .ok cut
  | none => .error .splitCharacter

/-- Reads the character at a place. -/
def readCharacter (text : List Char) (place : Nat) (c : Char) (d : Directive) :
    Reading → Except FilterFault (Reading × Directive)
  | .start =>
    if c = '[' then .ok (.span (place + 1), d)
    else if isOpening c then .ok (.word place, d)
    else .error .malformed
  | .word first => do
    if c = '=' then return (.level (place + 1), { d with target := ← piece text first place })
    else if c = '[' then return (.span (place + 1), { d with target := ← piece text first place })
    else return (.word first, d)
  | .span first => do
    if c = ']' then return (.spanRead, { d with span := some (← piece text first place) })
    else if c = '\x7b' then
      let name ← piece text first place
      return (.field (place + 1), { d with span := if name = [] then none else some name })
    else return (.span first, d)
  | .field first => do
    if c = '\x7d' then
      let field ← piece text first place
      if field = [] then throw .malformed
      return (.fieldRead, { d with field := some (← orMalformed (FieldTest.ofText? field)) })
    else return (.field first, d)
  | .fieldRead => if c = ']' then .ok (.spanRead, d) else .error .malformed
  | .spanRead => if c = '=' then .ok (.level (place + 1), d) else .error .malformed
  | .level first => .ok (.level first, d)

/-- What has been read when the characters are at their end. -/
def finish (text : List Char) (d : Directive) : Reading → Except FilterFault Directive
  | .word first => do
    let word ← ending text first
    match Threshold.ofText? word with
    | some threshold => return { d with threshold := threshold }
    | none => return { d with target := word }
  | .level first => do
    let level ← ending text first
    if level = [] then return d
    return { d with threshold := ← orMalformed (Threshold.ofText? level) }
  | .spanRead => .ok d
  | _ => .error .malformed

/-- Reads the characters from a place on. -/
def readFrom (text : List Char) :
    Nat → List Char → Reading → Directive → Except FilterFault Directive
  | _, [], reading, d => finish text d reading
  | place, c :: rest, reading, d => do
    let (next, d) ← readCharacter text place c d reading
    readFrom text (place + c.utf8Size) rest next d

def ofText (text : List Char) : Except FilterFault Directive :=
  readFrom text 0 (Text.trim text) .start {}

/-- Whether it is about what lies within spans. -/
def isScoped (d : Directive) : Bool := d.span.isSome || d.field.isSome

/-- Whether it is about entries by themselves: it names no span, and no value of a field. -/
def isPlain (d : Directive) : Bool := d.span.isNone && d.field.all fun t => t.value.isNone

def coversTarget (d : Directive) (c : Callsite) : Bool := d.target.isPrefixOf c.target.toList

/-- Whether entries or spans of this origin have the field, if one is named. -/
def coversField (d : Directive) (c : Callsite) : Bool :=
  d.field.all fun t => c.fields.contains (String.ofList t.name)

/-- Whether it is about spans. -/
def coversSpans (d : Directive) : Bool :=
  d.coversTarget Span.callsite && d.coversField Span.callsite &&
    d.span.all (· = Span.name.toList)

/-- Whether it is about this span. -/
def coversSpan (d : Directive) (s : Span) : Bool := d.coversSpans && d.field.all (·.admits s)

/-- Whether it is about the same things as another. -/
def isAbout (d e : Directive) : Bool :=
  d.target = e.target && d.span = e.span && d.field = e.field

/-- Whether another directive for the same origin tells more about it, or as much: the longer target
does, then one with a field, then the greater name of a field. -/
def yieldsTo (d e : Directive) : Bool :=
  d.target.length < e.target.length ||
    (d.target.length = e.target.length &&
      match d.field, e.field with
      | none, _ => true
      | some _, none => false
      | some t, some u => String.ofList t.name ≤ String.ofList u.name)

end Directive
end SerialDispatch
