/-!
# Turns

While worker and delivery can both go on, they take turns. A turn is good for so many things to do;
one that is used up, or whose party has nothing to do, is followed by a turn of the other.
-/
namespace SerialDispatch

/-- Whose turn it is, and how much can still be done in it. -/
inductive Turn where
  | worker (credit : Nat)
  | delivery (credit : Nat)
  deriving DecidableEq, Repr

namespace Turn

/-- How much can be done in one turn. -/
def length : Nat := 128

/-- When the caller gives way, delivery has the first turn. -/
def first : Turn := .delivery length

/-- The turn of a worker that has waited for something; that it has come to pass is the first thing
done in it. -/
def resumed : Turn := .worker (length - 1)

/-- Whether delivery goes on, if there is something to deliver. -/
def isForDelivery : Turn → Bool
  | .worker credit => credit = 0
  | .delivery credit => credit ≠ 0

/-- The worker has done one thing, in its turn or in a new one. -/
def worked : Turn → Turn
  | .worker (credit + 1) => .worker credit
  | _ => .worker (length - 1)

/-- Delivery has done one thing, in its turn or in a new one. -/
def delivered : Turn → Turn
  | .delivery (credit + 1) => .delivery credit
  | _ => .delivery (length - 1)

end Turn
end SerialDispatch
