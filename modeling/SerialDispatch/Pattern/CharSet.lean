/-!
# Sets of characters

Sets of characters as patterns spell them: ranges, what is made of them, and the named sets of ASCII
characters.
-/
namespace SerialDispatch

inductive CharSet where
  | none
  | range (first last : Char)
  | union (a b : CharSet)
  | both (a b : CharSet)
  | without (a b : CharSet)
  | exactlyOne (a b : CharSet)
  | complement (a : CharSet)
  /-- With each ASCII letter also the same letter in the other case. -/
  | anyCase (a : CharSet)
  deriving DecidableEq, Repr

namespace CharSet

/-- An ASCII letter in the other case. -/
def otherCase (c : Char) : Char := if c.isUpper then c.toLower else c.toUpper

def holds : CharSet → Char → Bool
  | none, _ => false
  | range first last, c => first ≤ c && c ≤ last
  | union a b, c => a.holds c || b.holds c
  | both a b, c => a.holds c && b.holds c
  | without a b, c => a.holds c && !b.holds c
  | exactlyOne a b, c => a.holds c != b.holds c
  | complement a, c => !a.holds c
  | anyCase a, c => a.holds c || a.holds (otherCase c)

def single (c : Char) : CharSet := range c c

def ofRanges (ranges : List (Char × Char)) : CharSet :=
  ranges.foldl (fun set r => union set (range r.1 r.2)) none

def digit : CharSet := range '0' '9'
def upper : CharSet := range 'A' 'Z'
def lower : CharSet := range 'a' 'z'
def alpha : CharSet := union upper lower
def alnum : CharSet := union digit alpha
def word : CharSet := union alnum (single '_')
def space : CharSet := ofRanges [('\t', '\r'), (' ', ' ')]

/-- The set of ASCII characters of this name. -/
def ofName? (name : String) : Option CharSet :=
  match name with
  | "alnum" => some alnum
  | "alpha" => some alpha
  | "ascii" => some (range '\x00' '\x7f')
  | "blank" => some (union (single '\t') (single ' '))
  | "cntrl" => some (union (range '\x00' '\x1f') (single '\x7f'))
  | "digit" => some digit
  | "graph" => some (range '!' '~')
  | "lower" => some lower
  | "print" => some (range ' ' '~')
  | "punct" => some (ofRanges [('!', '/'), (':', '@'), ('[', '\x60'), ('\x7b', '~')])
  | "space" => some space
  | "upper" => some upper
  | "word" => some word
  | "xdigit" => some (ofRanges [('0', '9'), ('A', 'F'), ('a', 'f')])
  | _ => Option.none

end CharSet
end SerialDispatch
