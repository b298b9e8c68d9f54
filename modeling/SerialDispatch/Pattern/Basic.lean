import SerialDispatch.Pattern.CharSet

/-!
# Patterns

A pattern prefers some of its matches to others: what stands first in a choice to what stands
behind it, and more repetitions to fewer or fewer to more. `Pattern.rests` lists what is left of a
text behind the matches at its beginning, in the order of preference. `Pattern.restsWithin` does so
for the matches that begin anywhere, and prefers those that begin earlier. `Pattern.reachesEnd` asks
whether the match that is preferred to all others leaves nothing.
-/
namespace SerialDispatch

inductive Pattern where
  | empty
  /-- The beginning of the whole text. -/
  | start
  /-- The end of the whole text. -/
  | finish
  | one (set : CharSet)
  | sequence (p q : Pattern)
  | choice (p q : Pattern)
  /-- Once or more, rather more times if greedy. -/
  | repeated (greedy : Bool) (p : Pattern)
  deriving DecidableEq, Repr

namespace Pattern

/-- Once or not at all. -/
def optional (greedy : Bool) (p : Pattern) : Pattern :=
  if greedy then .choice p .empty else .choice .empty p

/-- Any number of times. -/
def anyTimes (greedy : Bool) (p : Pattern) : Pattern := optional greedy (.repeated greedy p)

/-- What is left behind one match or more of the kind that `step` finds. A match of nothing is not
repeated. The number bounds the repetitions. -/
def restsRepeated (step : List Char → List (List Char)) (greedy : Bool) :
    Nat → List Char → List (List Char)
  | 0, text => step text
  | n + 1, text =>
    ((step text).flatMap fun rest =>
      if rest.length = text.length then [rest]
      else if greedy then restsRepeated step greedy n rest ++ [rest]
      else rest :: restsRepeated step greedy n rest).eraseDups

/-- What is left of a text, which is the end of a whole text of the given length. -/
def rests (whole : Nat) : Pattern → List Char → List (List Char)
  | .empty, text => [text]
  | .start, text => if text.length = whole then [text] else []
  | .finish, text => if text.isEmpty then [text] else []
  | .one _, [] => []
  | .one set, c :: rest => if set.holds c then [rest] else []
  | .sequence p q, text => ((p.rests whole text).flatMap (q.rests whole)).eraseDups
  | .choice p q, text => (p.rests whole text ++ q.rests whole text).eraseDups
  | .repeated greedy p, text => restsRepeated (p.rests whole) greedy text.length text

/-- What is left of a text behind the matches in it, wherever they begin. -/
def restsWithin (whole : Nat) (p : Pattern) : List Char → List (List Char)
  | [] => p.rests whole []
  | c :: text => p.rests whole (c :: text) ++ p.restsWithin whole text

/-- Whether the preferred match in a text lasts until its end. -/
def reachesEnd (p : Pattern) (text : List Char) : Bool :=
  (p.restsWithin text.length text).head? = some []

end Pattern
end SerialDispatch
