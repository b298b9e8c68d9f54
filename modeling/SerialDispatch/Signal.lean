import SerialDispatch.Result

/-!
# Signals

What reaches a callback: progress, the news that cancelling is no longer possible, and at last the
outcome. An `Event` is a signal for one dispatch.

`coalesce` thins out progress. Its one pass keeps a stack, newest event on top, and takes off the
top what the next event supersedes. `survivors` says the same by looking ahead: an event goes when
the event right behind it supersedes it.
-/
namespace SerialDispatch

abbrev DispatchId : Type := Nat

structure Progress where
  label : Option String
  current : UInt32
  total : UInt32
  deriving DecidableEq, Repr

inductive Signal where
  | progress (update : Progress)
  | preventCancel
  | finished (outcome : Outcome)
  deriving DecidableEq, Repr

/-- The three ways in which a callback is called. -/
inductive Trigger where
  | progress
  | prevent
  | finished
  deriving DecidableEq, Repr

def Signal.trigger : Signal → Trigger
  | .progress _ => .progress
  | .preventCancel => .prevent
  | .finished _ => .finished

structure Event where
  id : DispatchId
  signal : Signal
  deriving DecidableEq, Repr

namespace Event

/-- Progress is superseded by progress of the same dispatch. -/
def supersededBy (earlier later : Event) : Bool :=
  earlier.signal.trigger = .progress && later.signal.trigger = .progress && earlier.id = later.id

/-- The stack of kept events with one more event. -/
def pushOnto (kept : List Event) (e : Event) : List Event :=
  match kept with
  | [] => [e]
  | top :: rest => if top.supersededBy e then e :: rest else e :: top :: rest

/-- Leaves out the progress that is followed at once by progress of the same dispatch. -/
def coalesce (events : List Event) : List Event := (events.foldl pushOnto []).reverse

/-- The events that the next event does not supersede. -/
def survivors : List Event → List Event
  | [] => []
  | [e] => [e]
  | e :: next :: rest =>
    if e.supersededBy next then survivors (next :: rest) else e :: survivors (next :: rest)

end Event
end SerialDispatch
