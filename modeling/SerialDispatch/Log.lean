import SerialDispatch.Kind
import SerialDispatch.Queue.Inbox
import SerialDispatch.Signal

/-!
# What is logged

Every log entry is one of the events below, at a time, and within the span of the dispatch that the
worker is busy with, if any. An event belongs to one of three parties: the caller, the worker, or
the delivery of signals.
-/
namespace SerialDispatch

inductive Severity where
  | trace
  | debug
  | info
  | warn
  | error
  deriving DecidableEq, Repr

namespace Severity

/-- From the least to the most severe. -/
def rank : Severity → Nat
  | .trace => 0
  | .debug => 1
  | .info => 2
  | .warn => 3
  | .error => 4

def name : Severity → String
  | .trace => "TRACE"
  | .debug => "DEBUG"
  | .info => "INFO"
  | .warn => "WARN"
  | .error => "ERROR"

end Severity

inductive Party where
  | caller
  | worker
  | delivery
  deriving DecidableEq, Repr

inductive LogEvent where
  | dispatchQueued (id : DispatchId) (kind : Kind)
  | dispatchRefused (id : DispatchId) (kind : Kind) (error : SubmitError)
  | cancellationRequested (id : DispatchId)
  | deliveryDied
  | workerDied
  | waiting (delay : Nat)
  | cancelledBeforeStart
  | operationPanicked
  | operationComplete (status : Status)
  | queuedDropped (id : DispatchId)
  | unclaimed (id : DispatchId) (trigger : Trigger)
  deriving DecidableEq, Repr

namespace LogEvent

def party : LogEvent → Party
  | dispatchQueued .. | dispatchRefused .. | cancellationRequested _ | deliveryDied
  | workerDied => .caller
  | waiting _ | cancelledBeforeStart | operationPanicked | operationComplete _
  | queuedDropped _ => .worker
  | unclaimed .. => .delivery

def severity : LogEvent → Severity
  | dispatchQueued .. | cancellationRequested _ | waiting _ | cancelledBeforeStart
  | queuedDropped _ => .debug
  | dispatchRefused .. | unclaimed _ .finished => .warn
  | deliveryDied | workerDied | operationPanicked => .error
  | operationComplete _ => .info
  | unclaimed _ _ => .trace

def message : LogEvent → String
  | dispatchQueued .. => "dispatch queued"
  | dispatchRefused .. => "dispatch refused"
  | cancellationRequested _ => "cancellation requested"
  | deliveryDied => "progress delivery task terminated abnormally"
  | workerDied => "execution queue worker terminated abnormally"
  | waiting _ => "waiting for progress surface"
  | cancelledBeforeStart => "cancelled before start"
  | operationPanicked => "operation panicked"
  | operationComplete _ => "operation complete"
  | queuedDropped _ => "dispatcher stopping; queued dispatch dropped"
  | unclaimed _ .progress => "progress after terminal signal dropped"
  | unclaimed _ .prevent => "prevent-cancel after terminal signal dropped"
  | unclaimed _ .finished => "terminal signal for unknown dispatch"

end LogEvent

/-- The dispatch within whose work something is logged. -/
structure Span where
  id : DispatchId
  kind : Kind
  deriving DecidableEq, Repr

structure LogRecord where
  time : Nat
  span : Option Span
  event : LogEvent
  deriving DecidableEq, Repr

end SerialDispatch
