import SerialDispatch.Queue.Worker

/-!
# A serial queue of jobs

The handler of jobs does nothing but leave a trace. A job may take time and it may panic, when it is
run, which is then all it does, or when it is discarded.
-/
namespace SerialDispatch

structure Job where
  number : Int
  /-- How long the job takes. -/
  duration : Nat
  panics : Bool
  panicsDiscarded : Bool
  deriving DecidableEq, Repr

/-- A trace of what the handler was asked to do, or something logged by the queue. -/
inductive QueueHappening where
  | started (job : Job) (time : Nat)
  | finished (job : Job) (time : Nat)
  | discarded (job : Job) (time : Nat)
  | shutdown (time : Nat)
  | log (record : LogRecord)
  deriving DecidableEq, Repr

abbrev QueueStep := QueueCall Job

/-- What a step calls for; no sleep is longer than the longest wait. -/
def QueueStep.call : QueueStep → QueueCall Job
  | .sleep duration => .sleep (min duration Timer.longest)
  | call => call

/-- The handler of jobs. Without hooks it does nothing when it discards or shuts down. -/
def Runnable.ofJobs (hooked : Bool) : Runnable Job Unit where
  run _ job :=
    if job.panics then ⟨0, none⟩ else ⟨min job.duration Timer.longest, some ()⟩
  discard _ job := ⟨0, if hooked && job.panicsDiscarded then none else some ()⟩
  shutdown _ := ⟨0, some ()⟩

/-- The trace that an event leaves. -/
def QueueEvent.trace? (hooked : Bool) : QueueEvent Job → Option QueueHappening
  | .began (.run job) time => some (.started job time)
  | .ended (.run job) time => some (.finished job time)
  | .began (.discard job) time => if hooked then some (.discarded job time) else none
  | .began .shutdown time => if hooked then some (.shutdown time) else none
  | .log record => some (.log record)
  | _ => none

structure QueueSession where
  /-- Whether discarding and the shutdown hook leave a trace; if not, they do nothing. -/
  hooked : Bool
  queue : SerialQueue Job Unit

namespace QueueSession

def start (hooked : Bool) : QueueSession := ⟨hooked, .start ()⟩

def clock (s : QueueSession) : Nat := s.queue.clock

/-- What has left a trace. -/
def history (s : QueueSession) : List QueueHappening :=
  s.queue.past.filterMap (QueueEvent.trace? s.hooked)

def step (s : QueueSession) (step : QueueStep) : QueueSession × QueueReply :=
  let done := s.queue.step (.ofJobs s.hooked) step.call
  ({ s with queue := done.1 }, done.2)

/-- The session after the steps of a caller. -/
def runScript (s : QueueSession) (steps : List QueueStep) : QueueSession :=
  steps.foldl (fun s step => (s.step step).1) s

end QueueSession
end SerialDispatch
