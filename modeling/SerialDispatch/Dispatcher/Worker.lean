import SerialDispatch.Dispatcher.Delivery

/-!
# The worker of a dispatcher session

The worker takes dispatches from the inbox one by one. It waits out the window of a dispatch that
needs a surface, looks at its token once, constructs the operation, does the steps of its body and
sends the terminal signal. Before each dispatch it looks for the signal to stop; when it has seen
it, it discards what waits and ends.

At some points the worker gives way until delivery has handled all that was sent; between two
dispatches it does so only when its turn is over: `Session.givesWay`. `Session.next?` is the next
thing to be done before a given time, by delivery, by the worker, or at the end of a shutdown in the
background.
-/
namespace SerialDispatch

/-- The steps of the body that a request gets. -/
def Setup.body (S : Setup) (request : Request) : List BodyStep :=
  match S.registry.slot request.kind with
  | some factory => factory.body request
  | none => []

/-- Whether construction `n` panics, for an operation of this kind. -/
def Setup.breaks (S : Setup) (n : Nat) (kind : Kind) : Bool :=
  S.broken.contains n || !S.registry.supports kind

namespace Stage

/-- The time before which the worker cannot go on. -/
def wake : Stage → Nat
  | .window _ wake => wake
  | .running _ _ _ wake => wake
  | _ => 0

def isOver : Stage → Bool
  | .ended | .dead => true
  | _ => false

end Stage

namespace Session

/-- Whether delivery goes before the worker. -/
def givesWay (s : Session) : Bool :=
  match s.stage with
  | .idle => (!s.inbox.stopping && s.inbox.waiting.isEmpty) || s.turn.isForDelivery
  | .window _ wake => s.clock < wake
  | .ready _ => true
  | .running _ _ rest wake =>
    s.clock < wake ||
      match rest with
      | .flush :: _ => true
      | _ => false
  | .leaving .. => true
  | .ended => true
  | .dead => true

/-- Looks at the token, for the only time before the operation is constructed. -/
def check (s : Session) (task : Task) : Session :=
  if s.tokens.isCancelled task.token then
    { ((s.reach task (.checked true)).logWithin task .cancelledBeforeStart).emit task.id
        (.finished .cancelledBeforeStart) with
      stage := .idle }
  else { s.reach task (.checked false) with stage := .ready task }

/-- Takes a task from the inbox; a window begins, or else the token is looked at. -/
def take (S : Setup) (s : Session) (task : Task) (rest : List Task) : Session :=
  let s := { s with inbox := { s.inbox with waiting := rest }, turn := s.turn.worked }.reach
    task .taken
  if task.waits && S.config.quiescence ≠ 0 then
    { s.logWithin task (.waiting S.config.quiescence) with
      stage := .window task (Timer.due s.clock S.config.quiescence) }
  else s.check task

/-- The operation is over; without a result, it has panicked. -/
def leaveBody (s : Session) (task : Task) (result : Option Result) : Session :=
  { s.reach task (.returned result) with stage := .leaving task result }

/-- Constructs the operation. -/
def construct (S : Setup) (s : Session) (task : Task) : Session :=
  let n := s.constructed
  let created := ({ s with constructed := n + 1 }.reach task (.constructed n)).note
    (.created n s.clock)
  if S.breaks n task.request.kind then created.leaveBody task none
  else
    { created.note (.ran n task.request task.input task.request.kind.isCancellable) with
      stage := .running task n (S.body task.request) s.clock }

/-- Whether the operation sees that it is cancelled: only a cancellable kind is given its token. -/
def seesCancelled (s : Session) (task : Task) : Bool :=
  task.request.kind.isCancellable && s.tokens.isCancelled task.token

/-- The operation looks whether it is cancelled. -/
def look (s : Session) (task : Task) : Session := s.reach task (.looked (s.seesCancelled task))

/-- Begins a shutdown in the background, unless the dispatcher is gone already. -/
def beginShutdown (s : Session) : Session :=
  if s.owner = .held then s.signalStop .closing else s

/-- Does one step of the body, with `rest` still to do behind it. -/
def bodyStep (S : Setup) (s : Session) (task : Task) (n : Nat) (rest : List BodyStep)
    (step : BodyStep) : Session :=
  let next (s : Session) : Session := { s with stage := .running task n rest s.clock }
  let noted (word : String) (done : Session × Reply) : Session :=
    next (done.1.note (.stepped n word done.2))
  match step with
  | .progress update => next (s.emit task.id (.progress update))
  | .prevent => next (s.emit task.id .preventCancel)
  | .flush => next s
  | .work duration => { s with stage := .running task n rest (s.clock + duration) }
  | .poll => noted "poll" (s.look task, .flag (s.seesCancelled task))
  | .stopIfCancelled steps =>
    if s.seesCancelled task then
      (s.look task).leaveBody task (some (.stoppedAfter task.request.kind steps))
    else next (s.look task)
  | .leak => noted "leak" ({ s with sinks := s.sinks ++ [some task.id] }, .sink s.sinks.length)
  | .panic => s.leaveBody task none
  | .finish kind status log =>
    s.leaveBody task (some ⟨kind.getD task.request.kind, status, log⟩)
  | .store step => noted step.word (s.ask step)
  | .command command => noted command.word (s.perform S command)
  | .shutdown =>
    { s.beginShutdown.note (.stepped n "shutdown" .ok) with
      stage := .running task n (.flush :: rest) s.clock }
  | .unreadable word fault => noted word (s, .refused (.fault fault))

/-- Sends the terminal signal of an operation that has been run. -/
def leave (s : Session) (task : Task) (result : Option Result) : Session :=
  let logged := if result.isNone then s.logWithin task .operationPanicked else s
  let result := result.getD (.ofPanic task.request.kind)
  { (logged.logWithin task (.operationComplete result.status)).emit task.id
      (.finished (.completed result)) with stage := .idle, turn := .resumed }

/-- Discards a task that was never taken. -/
def discard (s : Session) (task : Task) : Session :=
  (({ s with tokens := s.tokens.cancel task.token }.reach task .discarded).log
    (.queuedDropped task.id)).emit task.id (.finished .cancelledBeforeStart)

/-- Discards what waits, in order, and ends. -/
def windDown (s : Session) : Session :=
  let discarded := s.inbox.waiting.foldl discard s
  { discarded with stage := .ended, inbox := discarded.inbox.close }

/-- Whether worker and delivery have both ended. Delivery ends when nothing waits and no sink is
held, or when a callback has panicked. -/
def isComplete (s : Session) : Bool :=
  s.stage.isOver && (s.phase ≠ .alive || (s.mailbox.isEmpty && s.noSinkHeld))

/-- What a shutdown finds when all has ended. -/
def logShutdown (s : Session) : Session :=
  let s := match s.stage with
    | .dead => s.log .workerDied
    | _ => s
  if s.phase = .alive then s else s.log .deliveryDied

/-- The end of a shutdown in the background. -/
def finishShutdown (s : Session) : Session :=
  { s with owner := .gone }.logShutdown.note (.shutdownDone s.clock)

/-- The next thing that the worker does, the clock having reached its time. -/
def advance? (S : Setup) (s : Session) : Option Session :=
  match s.stage with
  | .idle =>
    if s.inbox.stopping then some s.windDown
    else match s.inbox.waiting with
      | [] => none
      | task :: rest => some (s.take S task rest)
  | .window task _ => some ({ s with turn := .resumed }.check task)
  | .ready task => some (s.construct S task)
  | .running task n rest _ =>
    match rest with
    | [] => some (s.leaveBody task (some ⟨task.request.kind, .ok, []⟩))
    | step :: rest => some (s.bodyStep S task n rest step)
  | .leaving task result => some (s.leave task result)
  | .ended | .dead =>
    if s.owner = .closing && s.isComplete then some s.finishShutdown else none

/-- The next thing to be done, unless its time is not before the limit. -/
def next? (S : Setup) (limit : Option Nat) (s : Session) : Option Session :=
  if s.givesWay && !s.mailbox.isEmpty then some (s.deliverRound S)
  else if s.clock < s.stage.wake then
    if Timer.isBefore s.stage.wake limit then some { s with clock := s.stage.wake } else none
  else s.advance? S

end Session
end SerialDispatch
