import SerialDispatch.Log

/-!
# Where log entries come from

What a filter of the log goes by: the target of an entry, a path such as
`keyops_service::dispatch::queue`, its severity, and the names of its fields. The message is one of
the fields. Spans are announced in the same way.
-/
namespace SerialDispatch

structure Callsite where
  target : String
  severity : Severity
  fields : List String
  deriving DecidableEq, Repr

namespace LogEvent

def target : LogEvent → String
  | cancellationRequested _ => "keyops_service::dispatch::handle"
  | workerDied => "keyops_service::dispatch::queue"
  | unclaimed .. => "keyops_service::dispatch::progress"
  | dispatchQueued .. | dispatchRefused .. | deliveryDied | waiting _ | cancelledBeforeStart
  | operationPanicked | operationComplete _ | queuedDropped _ =>
    "keyops_service::dispatch::dispatcher"

/-- The names of the fields besides the message, those included that are not shown. -/
def fieldNames : LogEvent → List String
  | dispatchQueued .. => ["dispatch_id", "kind"]
  | dispatchRefused .. => ["dispatch_id", "kind", "error"]
  | cancellationRequested _ | queuedDropped _ | unclaimed .. => ["dispatch_id"]
  | deliveryDied | workerDied | operationPanicked => ["error"]
  | waiting _ => ["delay_ms"]
  | cancelledBeforeStart => []
  | operationComplete _ => ["duration_ms", "outcome"]

def callsite (e : LogEvent) : Callsite := ⟨e.target, e.severity, "message" :: e.fieldNames⟩

end LogEvent

namespace Span

/-- The name of every span. -/
def name : String := "dispatch"

def callsite : Callsite := ⟨"keyops_service::dispatch::dispatcher", .info, ["dispatch_id", "kind"]⟩

end Span
end SerialDispatch
