import SerialDispatch.Codec.Log
import SerialDispatch.LogFilter
import SerialDispatch.Simulation.Run

/-!
# What a simulation logs

The service logs what it does, and the simulation logs what its callbacks are told before the end,
and at last that all is over. A filter shows some of it.
-/
namespace SerialDispatch.Simulation

/-- What is logged during a simulation. -/
inductive Logged where
  | service (record : LogRecord)
  /-- The callback of a request was told of progress. -/
  | progress (request : Nat) (update : Progress)
  /-- The callback of a request was told that it can no longer be cancelled. -/
  | prevented (request : Nat)
  /-- All is over, with so many keyrings stored. -/
  | done (stored : Nat)
  deriving DecidableEq, Repr

namespace Logged

/-- Where it comes from. A label is a field of progress even if there is none. -/
def callsite : Logged → Callsite
  | .service record => record.event.callsite
  | .progress .. => ⟨"keyops_demo", .info, ["message", "request", "label", "current", "total"]⟩
  | .prevented _ => ⟨"keyops_demo", .info, ["message", "request"]⟩
  | .done _ => ⟨"keyops_demo", .info, ["message", "stored"]⟩

def party : Logged → Party
  | .service record => record.event.party
  | .progress .. | .prevented _ => .delivery
  | .done _ => .caller

def message : Logged → String
  | .service record => record.event.message
  | .progress .. => "progress"
  | .prevented _ => "cancellation no longer possible"
  | .done _ => "done"

/-- The fields that go with the message. -/
def fields : Logged → List (String × Json)
  | .service record => record.event.fields
  | .progress request update =>
    ("request", .nat request) ::
      ((match update.label with
        | some label => [("label", .string label)]
        | none => []) ++
      [("current", .nat update.current.toNat), ("total", .nat update.total.toNat)])
  | .prevented request => [("request", .nat request)]
  | .done stored => [("stored", .nat stored)]

def span? : Logged → Option Span
  | .service record => record.span
  | _ => none

/-- The same within another span, or within none. -/
def within (span : Option Span) : Logged → Logged
  | .service record => .service { record with span := span }
  | other => other

/-- What a filter shows of it, if anything. -/
def under? (f : LogFilter) (l : Logged) : Option Logged :=
  if f.shows l.callsite l.span? then some (l.within (f.shownSpan l.span?)) else none

/-- What is logged when something happens, if anything. -/
def ofHappening? : Happening → Option Logged
  | .log record => some (.service record)
  | .told request ⟨_, .progress update⟩ => some (.progress request update)
  | .told request ⟨_, .preventCancel⟩ => some (.prevented request)
  | _ => none

/-- What is logged in the course of a history. -/
def during (history : List Happening) : List Logged := history.filterMap ofHappening?

end Logged

end SerialDispatch.Simulation
