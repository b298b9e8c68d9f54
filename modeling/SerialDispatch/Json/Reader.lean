import SerialDispatch.Json.Basic
import SerialDispatch.Json.Quoted

/-!
# Reading JSON from left to right

A `Reader` takes a value from the front of a text and returns what is left of the text. It stops at
the first problem, so of two problems in one text the left one is reported.

`Json.read` reads any value and keeps it; `skip` passes over a value of which nothing is kept, and
asks less of it: surrogate units may stand alone, a number may be of any size, and nesting may be of
any depth. Both refuse trailing commas and numbers with superfluous zeros in front.
-/
namespace SerialDispatch

/-- Why a text has no value. -/
inductive DecodeError where
  | malformed
  | unknownVariant
  | missingField
  | duplicateField
  deriving DecidableEq, Repr

abbrev Reader (α : Type) := List Char → Except DecodeError (α × List Char)

namespace Reader

def isBlank (c : Char) : Bool := c = ' ' || c = '\n' || c = '\t' || c = '\r'

/-- The text without the blanks in front. -/
def trim (cs : List Char) : List Char := cs.dropWhile isBlank

/-- Passes over one character, after blanks. -/
def punctuation (c : Char) (cs : List Char) : Except DecodeError (List Char) :=
  match trim cs with
  | d :: rest => if d = c then .ok rest else .error .malformed
  | [] => .error .malformed

/-- Passes over a word that stands right here. -/
def word : List Char → List Char → Except DecodeError (List Char)
  | [], cs => .ok cs
  | w :: ws, c :: cs => if c = w then word ws cs else .error .malformed
  | _ :: _, [] => .error .malformed

/-- The whole text is one value, up to blanks. -/
def whole {α : Type} (read : Reader α) (cs : List Char) : Except DecodeError α := do
  let (a, rest) ← read cs
  if trim rest = [] then return a else throw .malformed

def pieces : Reader (List Quoted.Piece) := fun cs =>
  match trim cs with
  | '"' :: rest =>
    match Quoted.pieces? rest with
    | some found => .ok found
    | none => .error .malformed
  | _ => .error .malformed

def string : Reader String := fun cs => do
  let (ps, rest) ← pieces cs
  match Quoted.text? ps with
  | some text => return (String.ofList text, rest)
  | none => throw .malformed

def null : Reader Unit := fun cs => do
  return ((), ← word ['n', 'u', 'l', 'l'] (trim cs))

/-- Either `null` or a value. -/
def optional {α : Type} (read : Reader α) : Reader (Option α) := fun cs =>
  match trim cs with
  | 'n' :: _ => do
    let (_, rest) ← null cs
    return (none, rest)
  | _ => do
    let (a, rest) ← read cs
    return (some a, rest)

/-- Digits without superfluous zeros in front. -/
def isWhole (digits : List Char) : Bool :=
  match digits with
  | [] => false
  | '0' :: _ :: _ => false
  | _ => true

/-- A number below `bound`, written as digits alone. -/
def natural (bound : Nat) : Reader Nat := fun cs =>
  let cs := trim cs
  let digits := cs.takeWhile Char.isDigit
  let rest := cs.dropWhile Char.isDigit
  let value := Nat.ofDigitChars 10 digits 0
  let ended := match rest with
    | c :: _ => c ≠ '.' && c ≠ 'e' && c ≠ 'E'
    | [] => true
  if isWhole digits && ended && value < bound then .ok (value, rest) else .error .malformed

def byte : Reader UInt8 := fun cs => do
  let (n, rest) ← natural UInt8.size cs
  return (UInt8.ofNat n, rest)

def word64 : Reader UInt64 := fun cs => do
  let (n, rest) ← natural UInt64.size cs
  return (UInt64.ofNat n, rest)

/-- Items separated by commas, up to the closing bracket. The first argument bounds their number. -/
def itemsFrom {α : Type} (item : Reader α) : Nat → Reader (List α)
  | 0, _ => .error .malformed
  | n + 1, cs => do
    let (a, rest) ← item cs
    match trim rest with
    | ']' :: rest => return ([a], rest)
    | ',' :: rest => do
      let (more, rest) ← itemsFrom item n rest
      return (a :: more, rest)
    | _ => throw .malformed

/-- The items of an array, its opening bracket read. -/
def items {α : Type} (item : Reader α) : Reader (List α) := fun cs =>
  match trim cs with
  | ']' :: rest => .ok ([], rest)
  | _ => itemsFrom item cs.length cs

def list {α : Type} (item : Reader α) : Reader (List α) := fun cs => do
  items item (← punctuation '[' cs)

/-- Members separated by commas, up to the closing brace. The first argument bounds their number. -/
def membersFrom {α β : Type} (name : Reader α) (value : Reader β) : Nat → Reader (List (α × β))
  | 0, _ => .error .malformed
  | n + 1, cs => do
    let (a, rest) ← name cs
    let (b, rest) ← value (← punctuation ':' rest)
    match trim rest with
    | '\x7d' :: rest => return ([(a, b)], rest)
    | ',' :: rest => do
      let (more, rest) ← membersFrom name value n rest
      return ((a, b) :: more, rest)
    | _ => throw .malformed

/-- The members of an object, its opening brace read. -/
def members {α β : Type} (name : Reader α) (value : Reader β) : Reader (List (α × β)) := fun cs =>
  match trim cs with
  | '\x7d' :: rest => .ok ([], rest)
  | _ => membersFrom name value cs.length cs

/-- A number split at its point and its exponent mark. -/
structure Scanned where
  negative : Bool
  whole : List Char
  fraction : Option (List Char)
  exponent : Option (Option Char × List Char)

namespace Scanned

def text (s : Scanned) : List Char :=
  (if s.negative then ['-'] else []) ++ s.whole ++
    (match s.fraction with
      | some digits => '.' :: digits
      | none => []) ++
    (match s.exponent with
      | some (sign, digits) => 'e' :: sign.toList ++ digits
      | none => [])

/-- Plain digits make an integer; a zero behind a minus sign is none. -/
def numeral (s : Scanned) : Numeral :=
  match s.fraction, s.exponent with
  | none, none =>
    let n := Nat.ofDigitChars 10 s.whole 0
    if s.negative then
      if n = 0 then .real "-0" else .integer (-(n : Int))
    else .integer n
  | _, _ => .real (String.ofList s.text)

/-- Takes digits behind a value while it stays within a word. The digits that find no room are
left. -/
def absorb (value : Nat) : List Char → Nat × List Char
  | [] => (value, [])
  | d :: rest =>
    let next := value * 10 + (d.toNat - '0'.toNat)
    if next < UInt64.size then absorb next rest else (value, d :: rest)

/-- The power of ten that is written behind the digits. -/
def writtenExponent (s : Scanned) : Int :=
  match s.exponent with
  | some (some '-', digits) => -(Nat.ofDigitChars 10 digits 0 : Int)
  | some (_, digits) => Nat.ofDigitChars 10 digits 0
  | none => 0

/-- The digits that a word holds, as a number, and the power of ten behind it. A digit before the
point that finds no room is worth a power of ten, one behind the point nothing. -/
def magnitude (s : Scanned) : Nat × Int :=
  let fraction := s.fraction.getD []
  let (high, unread) := absorb 0 s.whole
  let (significand, ignored) := absorb high fraction
  (significand, unread.length - (fraction.length - ignored.length : Int) + s.writtenExponent)

/-- The nearest number with 53 binary digits; from halfway, the one with an even last digit. -/
def roundDouble (n : Nat) : Nat :=
  let unit := Nat.pow 2 (n.log2 - 52)
  let digits := n / unit
  let remainder := n % unit
  if 2 * remainder < unit || (2 * remainder = unit && digits % 2 = 0) then digits * unit
  else (digits + 1) * unit

/-- Halfway between the largest double and the next power of two. -/
def doubleBound : Nat := Nat.pow 2 1024 - Nat.pow 2 970

/-- Whether the number has a value as a double: its digits and the power of ten behind them, both
rounded, have a product that rounds to a finite one. -/
def isFinite (s : Scanned) : Bool :=
  let (significand, exponent) := s.magnitude
  significand = 0 || exponent < 0 ||
    (exponent ≤ 308 &&
      roundDouble significand * roundDouble (Nat.pow 10 exponent.toNat) < doubleBound)

end Scanned

/-- A number that stands right here. -/
def scanned : Reader Scanned := fun cs =>
  let (negative, cs) := match cs with
    | '-' :: rest => (true, rest)
    | _ => (false, cs)
  let whole := cs.takeWhile Char.isDigit
  let cs := cs.dropWhile Char.isDigit
  let (fraction, cs) := match cs with
    | '.' :: rest => (some (rest.takeWhile Char.isDigit), rest.dropWhile Char.isDigit)
    | _ => (none, cs)
  let (exponent, cs) := match cs with
    | c :: rest =>
      if c = 'e' || c = 'E' then
        let (sign, rest) := match rest with
          | '+' :: rest => (some '+', rest)
          | '-' :: rest => (some '-', rest)
          | _ => (none, rest)
        (some (sign, rest.takeWhile Char.isDigit), rest.dropWhile Char.isDigit)
      else (none, cs)
    | [] => (none, cs)
  if isWhole whole && fraction ≠ some [] && (exponent.map (·.2)) ≠ some [] then
    .ok (⟨negative, whole, fraction, exponent⟩, cs)
  else .error .malformed

/-- Passes over a value. The first argument bounds the nesting. -/
def skipWithin : Nat → Reader Unit
  | 0, _ => .error .malformed
  | depth + 1, cs =>
    match trim cs with
    | '[' :: rest => do
      let (_, rest) ← items (skipWithin depth) rest
      return ((), rest)
    | '\x7b' :: rest => do
      let (_, rest) ← members skipString (skipWithin depth) rest
      return ((), rest)
    | 'n' :: rest => do return ((), ← word ['u', 'l', 'l'] rest)
    | 't' :: rest => do return ((), ← word ['r', 'u', 'e'] rest)
    | 'f' :: rest => do return ((), ← word ['a', 'l', 's', 'e'] rest)
    | '"' :: _ => skipString cs
    | other => do
      let (_, rest) ← scanned other
      return ((), rest)
where
  skipString : Reader Unit := fun cs => do
    let (ps, rest) ← pieces cs
    if Quoted.skippable ps then return ((), rest) else throw .malformed

/-- Passes over a value of any depth: nesting is never deeper than the text is long. -/
def skip : Reader Unit := fun cs => skipWithin (cs.length + 1) cs

end Reader

namespace Json

/-- Reads a value in which at most `depth` arrays and objects stand inside one another. -/
def read (depth : Nat) : Reader Json := fun cs =>
  match Reader.trim cs with
  | '[' :: rest =>
    match depth with
    | 0 => .error .malformed
    | depth + 1 => do
      let (items, rest) ← Reader.items (read depth) rest
      return (.array items, rest)
  | '\x7b' :: rest =>
    match depth with
    | 0 => .error .malformed
    | depth + 1 => do
      let (members, rest) ← Reader.members Reader.string (read depth) rest
      return (.object members, rest)
  | 'n' :: rest => do return (.null, ← Reader.word ['u', 'l', 'l'] rest)
  | 't' :: rest => do return (.bool true, ← Reader.word ['r', 'u', 'e'] rest)
  | 'f' :: rest => do return (.bool false, ← Reader.word ['a', 'l', 's', 'e'] rest)
  | '"' :: _ => do
    let (s, rest) ← Reader.string cs
    return (.string s, rest)
  | other => do
    let (s, rest) ← Reader.scanned other
    if s.isFinite then return (.number s.numeral, rest) else throw .malformed

/-- How many arrays and objects may stand inside one another in a text. -/
def maxDepth : Nat := 127

def ofText (text : String) : Except DecodeError Json := Reader.whole (read maxDepth) text.toList

end Json
end SerialDispatch
