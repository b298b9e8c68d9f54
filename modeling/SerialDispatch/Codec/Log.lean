import SerialDispatch.Json.Basic
import SerialDispatch.Log

/-!
# Log entries in JSON

The fields that an event carries besides its message, and the span that an entry lies within.
-/
namespace SerialDispatch

def LogEvent.fields : LogEvent → List (String × Json)
  | .dispatchQueued id kind => [("dispatch_id", .nat id), ("kind", .string kind.name)]
  | .dispatchRefused id kind error =>
    [("dispatch_id", .nat id), ("kind", .string kind.name), ("error", .string error.message)]
  | .cancellationRequested id => [("dispatch_id", .nat id)]
  | .deliveryDied => []
  | .workerDied => []
  | .waiting delay => [("delay_ms", .nat delay)]
  | .cancelledBeforeStart => []
  | .operationPanicked => []
  | .operationComplete status => [("outcome", .string status.label)]
  | .queuedDropped id => [("dispatch_id", .nat id)]
  | .unclaimed id _ => [("dispatch_id", .nat id)]

def Span.toJson (s : Span) : Json :=
  .object [("dispatch_id", .nat s.id), ("kind", .string s.kind.name), ("name", .string "dispatch")]

end SerialDispatch
