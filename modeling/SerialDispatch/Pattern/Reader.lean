import SerialDispatch.Pattern.Basic
import SerialDispatch.Text.Blank
import SerialDispatch.Text.Letter

/-!
# Reading patterns

A pattern is written in the usual notation: `.` for any character, sets in brackets, groups in
parentheses, `|` between alternatives, `?`, `*` and `+` behind what is repeated, with another `?`
where fewer repetitions are preferred, `^` and `$` for the ends of the text, and a backslash before
a character that stands for itself. Repetitions are not counted in braces.

Flags in a group, such as `(?U)` or `(?x:...)`, change the notation. As no tables of the properties
of characters are at hand, `\d`, `\s`, `\w`, `\p`, word boundaries and letters in any case are
refused, except that sets and letters in any case are read where the flag `u` is off and all is
ASCII.
-/
namespace SerialDispatch.Pattern

structure Flags where
  /-- Letters stand for both of their cases. -/
  anyCase : Bool := false
  /-- The dot also stands for a line end. -/
  dotAll : Bool := false
  /-- Fewer repetitions are preferred, unless a `?` stands behind. -/
  swapped : Bool := false
  /-- Blanks and comments are passed over. -/
  spaced : Bool := false
  unicode : Bool := true
  deriving DecidableEq, Repr

namespace Flags

/-- Sets the flag of this letter. The flags `m` and `R` make no difference within one line. -/
def set? (f : Flags) (letter : Char) (on : Bool) : Option Flags :=
  match letter with
  | 'i' => some { f with anyCase := on }
  | 's' => some { f with dotAll := on }
  | 'U' => some { f with swapped := on }
  | 'x' => some { f with spaced := on }
  | 'u' => some { f with unicode := on }
  | 'm' | 'R' => some f
  | _ => none

/-- Sets the flags in front of a hyphen and clears those behind it. No letter comes twice, and
something stands behind the hyphen. -/
def change? (f : Flags) (letters : List Char) : Option Flags := do
  guard (letters.eraseDups.length = letters.length && letters.getLast? ≠ some '-')
  let on ← (letters.takeWhile (· ≠ '-')).foldlM (set? · · true) f
  ((letters.dropWhile (· ≠ '-')).drop 1).foldlM (set? · · false) on

/-- Passes over comments and blanks where they do not count. The flag tells whether a comment has
begun. -/
def clean (f : Flags) (commented : Bool) : List Char → List Char
  | [] => []
  | c :: rest =>
    if !f.spaced then c :: rest
    else if commented then f.clean (c ≠ '\n') rest
    else if c = '#' then f.clean true rest
    else if Text.isBlank c then f.clean false rest
    else c :: rest

end Flags

/-- What stands for itself, for a set of characters, or for a place in the text. -/
inductive Atom where
  | character (c : Char)
  | set (s : CharSet)
  | place (p : Pattern)
  deriving DecidableEq, Repr

namespace Atom

/-- An atom by itself, if the flags allow it. -/
def pattern? (f : Flags) : Atom → Option Pattern
  | character c =>
    if f.unicode then if f.anyCase then none else some (.one (.single c))
    else if 128 ≤ c.toNat then none
    else some (.one (if f.anyCase then .anyCase (.single c) else .single c))
  | set s => some (.one s)
  | place p => some p

/-- An atom within brackets. -/
def set? (f : Flags) : Atom → Option CharSet
  | character c => if !f.unicode && 128 ≤ c.toNat then none else some (.single c)
  | set s => some s
  | place _ => none

end Atom

def hexValue? (c : Char) : Option Nat :=
  if '0' ≤ c ∧ c ≤ '9' then some (c.toNat - '0'.toNat)
  else if 'a' ≤ c.toLower ∧ c.toLower ≤ 'f' then some (c.toLower.toNat - 'a'.toNat + 10)
  else none

/-- The character that so many hexadecimal digits name, with those before them as `value`. -/
def code? (f : Flags) : Nat → Nat → List Char → Option (Char × List Char)
  | 0, value, text => if value.isValidChar then some (Char.ofNat value, text) else none
  | n + 1, value, text =>
    match f.clean false text with
    | [] => none
    | c :: rest => do code? f n (value * 16 + (← hexValue? c)) rest

/-- The character of a one-letter escape. -/
def control? (c : Char) : Option Char :=
  match c with
  | 'a' => some '\x07'
  | 'f' => some '\x0c'
  | 'n' => some '\n'
  | 'r' => some '\r'
  | 't' => some '\t'
  | 'v' => some '\x0b'
  | _ => none

/-- Whether a backslash makes this character stand for itself. -/
def isEscapable (c : Char) : Bool := c.toNat < 128 && !c.isAlphanum && c ≠ '<' && c ≠ '>'

/-- What an escape stands for, its backslash read. -/
def escape? (f : Flags) : List Char → Option (Atom × List Char)
  | [] => none
  | 'x' :: rest => (code? f 2 0 rest).map fun r => (.character r.1, r.2)
  | 'u' :: rest => (code? f 4 0 rest).map fun r => (.character r.1, r.2)
  | 'U' :: rest => (code? f 8 0 rest).map fun r => (.character r.1, r.2)
  | 'A' :: rest => some (.place .start, rest)
  | 'z' :: rest => some (.place .finish, rest)
  | 'd' :: rest => if f.unicode then none else some (.set .digit, rest)
  | 's' :: rest => if f.unicode then none else some (.set .space, rest)
  | 'w' :: rest => if f.unicode then none else some (.set .word, rest)
  | c :: rest =>
    match control? c with
    | some d => some (.character d, rest)
    | none => if isEscapable c then some (.character c, rest) else none

/-- What stands by itself outside of brackets. -/
def atom? (f : Flags) : List Char → Option (Atom × List Char)
  | [] => none
  | '\\' :: rest => escape? f rest
  | '.' :: rest =>
    if !f.unicode then none
    else some (.set (if f.dotAll then .complement .none else .complement (.single '\n')), rest)
  | '^' :: rest => some (.place .start, rest)
  | '$' :: rest => some (.place .finish, rest)
  | c :: rest => some (.character c, rest)

/-- What stands within brackets. -/
def item? (f : Flags) : List Char → Option (Atom × List Char)
  | [] => none
  | '\\' :: rest => escape? f rest
  | c :: rest => some (.character c, rest)

/-- An item, or a range from one to another. A hyphen in front of a hyphen or of the closing bracket
makes no range. -/
def range? (f : Flags) (text : List Char) : Option (CharSet × List Char) := do
  let (first, rest) ← item? f text
  match f.clean false rest with
  | [] => none
  | '-' :: behind =>
    match f.clean false behind with
    | [] => none
    | ']' :: _ => return (← first.set? f, '-' :: behind)
    | '-' :: _ => return (← first.set? f, '-' :: behind)
    | other => do
      match first, ← item? f other with
      | .character a, (.character b, rest) =>
        guard (a ≤ b && (f.unicode || b.toNat < 128))
        return (.range a b, rest)
      | _, _ => none
  | other => return (← first.set? f, other)

/-- A named set, its opening bracket read: colons around the name, and `^` before what is not
wanted. -/
def named? (text : List Char) : Option (CharSet × List Char) :=
  match text with
  | ':' :: rest =>
    let negated := rest.head? = some '^'
    let name := if negated then rest.drop 1 else rest
    match name.dropWhile (· ≠ ':') with
    | ':' :: ']' :: rest =>
      (CharSet.ofName? (String.ofList (name.takeWhile (· ≠ ':')))).map fun set =>
        (if negated then .complement set else set, rest)
    | _ => none
  | _ => none

/-- How brackets begin, the first of them read: whether the set is what they do not hold, the
hyphens or the closing bracket that stand for themselves in front, and the rest. -/
def opening (f : Flags) (text : List Char) : Bool × CharSet × List Char :=
  let text := f.clean false text
  let negated := text.head? = some '^'
  let text := if negated then f.clean false (text.drop 1) else text
  match text with
  | ']' :: rest => (negated, .single ']', rest)
  | '-' :: rest => (negated, .single '-', rest.dropWhile (· = '-'))
  | _ => (negated, .none, text)

/-- The set between brackets, as the flags allow it. -/
def bracketed? (f : Flags) (negated : Bool) (set : CharSet) : Option CharSet :=
  if f.anyCase && f.unicode then none
  else if negated && !f.unicode then none
  else
    let folded := if f.anyCase then .anyCase set else set
    some (if negated then .complement folded else folded)

/-- The set up to the closing bracket. What comes before the last operator is in `before`, what
comes behind it so far in `set`. The number bounds the steps. -/
def within? (f : Flags) : Nat → (before : CharSet → CharSet) → CharSet → List Char →
    Option (CharSet × List Char)
  | 0, _, _, _ => none
  | n + 1, before, set, text =>
    match f.clean false text with
    | [] => none
    | ']' :: rest => some (before set, rest)
    | '&' :: '&' :: rest => within? f n (.both (before set)) .none rest
    | '-' :: '-' :: rest => within? f n (.without (before set)) .none rest
    | '~' :: '~' :: rest => within? f n (.exactlyOne (before set)) .none rest
    | '[' :: rest =>
      match named? rest with
      | some (inner, rest) => within? f n before (.union set inner) rest
      | none => do
        let (negated, first, rest) := opening f rest
        let (inner, rest) ← within? f n id first rest
        within? f n before (.union set (← bracketed? f negated inner)) rest
    | other => do
      let (inner, rest) ← range? f other
      within? f n before (.union set inner) rest

/-- A set in brackets, the first of them read. -/
def brackets? (f : Flags) (text : List Char) : Option (CharSet × List Char) := do
  let (negated, first, rest) := opening f text
  let (inner, rest) ← within? f (text.length + 1) id first rest
  return (← bracketed? f negated inner, rest)

/-- How a group begins. -/
inductive Opening where
  /-- No group: the flags change for what follows. -/
  | change (flags : Flags)
  | group (flags : Flags) (name : Option (List Char))
  deriving DecidableEq, Repr

/-- Whether a group may have this name. -/
def isName (name : List Char) : Bool :=
  match name with
  | [] => false
  | c :: rest =>
    (c = '_' || (Text.isLetterOrNumber c && !c.isDigit)) &&
      rest.all fun c => c = '_' || c = '.' || c = '[' || c = ']' || Text.isLetterOrNumber c

/-- The beginning of a group with a name, what is in front of the name read. -/
def namedGroup? (f : Flags) (text : List Char) : Option (Opening × List Char) :=
  match text.dropWhile (· ≠ '>') with
  | [] => none
  | _ :: rest =>
    let name := text.takeWhile (· ≠ '>')
    if isName name then some (.group f (some name), rest) else none

/-- The beginning of a group, its parenthesis read. -/
def groupOpening? (f : Flags) (text : List Char) : Option (Opening × List Char) :=
  match f.clean false text with
  | '?' :: 'P' :: '<' :: rest => namedGroup? f rest
  | '?' :: '<' :: '=' :: _ => none
  | '?' :: '<' :: '!' :: _ => none
  | '?' :: '<' :: rest => namedGroup? f rest
  | '?' :: rest =>
    let isLetter (c : Char) : Bool := c ≠ ':' && c ≠ ')'
    let letters := rest.takeWhile isLetter
    match rest.dropWhile isLetter with
    | ':' :: rest => do return (.group (← f.change? letters) none, rest)
    | _ :: rest => do
      guard (!letters.isEmpty)
      return (.change (← f.change? letters), rest)
    | [] => none
  | other => some (.group f none, other)

/-- What has been read of a group. A change of flags is kept in its place as `none`. -/
structure Draft where
  /-- The alternatives before the present one, the last one first. -/
  alternatives : List Pattern := []
  /-- The parts of the present alternative, the last one first. -/
  parts : List (Option Pattern) := []
  /-- The names of all groups so far, in this group or elsewhere. -/
  names : List (List Char) := []

namespace Draft

def add (d : Draft) (p : Pattern) : Draft := { d with parts := some p :: d.parts }

/-- The present alternative. -/
def present (d : Draft) : Pattern :=
  d.parts.foldl
    (fun behind part =>
      match part, behind with
      | none, _ => behind
      | some p, .empty => p
      | some p, _ => .sequence p behind)
    .empty

/-- Begins another alternative. -/
def alternate (d : Draft) : Draft :=
  { d with alternatives := d.present :: d.alternatives, parts := [] }

def pattern (d : Draft) : Pattern :=
  d.alternatives.foldl (fun behind p => .choice p behind) d.present

/-- The draft of a group within, unless another one has its name. -/
def inner? (d : Draft) (name : Option (List Char)) : Option Draft :=
  if name.any d.names.contains then none else some { names := name.toList ++ d.names }

/-- Adds a group that has been read. -/
def addGroup (d group : Draft) : Draft := { d.add group.pattern with names := group.names }

/-- Repeats the last part, if there is one. -/
def repeat? (d : Draft) (make : Pattern → Pattern) : Option Draft :=
  match d.parts with
  | some p :: parts => some { d with parts := some (make p) :: parts }
  | _ => none

end Draft

/-- How an operator repeats, and whether it is one. -/
def repetition? (c : Char) : Option (Bool → Pattern → Pattern) :=
  match c with
  | '?' => some optional
  | '*' => some anyTimes
  | '+' => some .repeated
  | _ => none

/-- Reads up to the end of a group or of the text. The number bounds the steps. -/
def read? : Nat → Flags → Draft → List Char → Option (Draft × List Char)
  | 0, _, _, _ => none
  | n + 1, f, d, text =>
    match f.clean false text with
    | [] => some (d, [])
    | ')' :: rest => some (d, ')' :: rest)
    | '|' :: rest => read? n f d.alternate rest
    | '(' :: rest => do
      match ← groupOpening? f rest with
      | (.change g, rest) => read? n g { d with parts := none :: d.parts } rest
      | (.group g name, rest) =>
        match ← read? n g (← d.inner? name) rest with
        | (group, ')' :: rest) => read? n f (d.addGroup group) rest
        | _ => none
    | '[' :: rest => do
      let (set, rest) ← brackets? f rest
      read? n f (d.add (.one set)) rest
    | '\x7b' :: _ => none
    | c :: rest =>
      match repetition? c with
      | some make => do
        let isLazy := rest.head? = some '?'
        let rest := if isLazy then rest.drop 1 else rest
        read? n f (← d.repeat? (make (isLazy == f.swapped))) rest
      | none => do
        let (atom, rest) ← atom? f (c :: rest)
        read? n f (d.add (← atom.pattern? f)) rest

/-- The pattern that a text spells, if it is one. -/
def ofText? (text : List Char) : Option Pattern := do
  match ← read? (text.length + 1) {} {} text with
  | (d, []) => some d.pattern
  | _ => none

end SerialDispatch.Pattern
