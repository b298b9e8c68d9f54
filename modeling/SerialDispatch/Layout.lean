/-!
# Text laid out in a column

A text is first cut to a precision and then filled up to a width. A text that is wide enough already
is left alone.
-/
namespace SerialDispatch

/-- Where the text stands in its column. -/
inductive Alignment where
  | left
  | right
  | center
  deriving DecidableEq, Repr

structure Layout where
  width : Nat := 0
  precision : Option Nat := none
  alignment : Alignment := .left
  fill : Char := ' '
  deriving DecidableEq, Repr

namespace Layout

/-- How many fill characters go before the text, of `n` in all; in the middle, the smaller half. -/
def before (l : Layout) (n : Nat) : Nat :=
  match l.alignment with
  | .left => 0
  | .right => n
  | .center => n / 2

def chars (l : Layout) (text : List Char) : List Char :=
  let kept := match l.precision with
    | some p => text.take p
    | none => text
  let missing := l.width - kept.length
  List.replicate (l.before missing) l.fill ++ kept ++
    List.replicate (missing - l.before missing) l.fill

def apply (l : Layout) (text : String) : String := String.ofList (l.chars text.toList)

end Layout
end SerialDispatch
