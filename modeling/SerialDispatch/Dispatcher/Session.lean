import SerialDispatch.Dispatcher.Script
import SerialDispatch.Dispatcher.Turn
import SerialDispatch.Log
import SerialDispatch.Timer
import SerialDispatch.Token

/-!
# The state of a dispatcher session

A dispatcher runs dispatches one at a time. Its caller submits them to an inbox, its worker takes
them out, and signals travel through a mailbox to delivery. A session is all of that at one moment,
with everything that has happened so far: `Session.history`.

This module holds the state and what callers, callbacks and operations do to it at once, without
anyone giving way: `Session.perform`.
-/
namespace SerialDispatch

structure Config where
  /-- How long the worker waits for a surface before an operation that needs one. -/
  quiescence : Nat := 200
  coalescing : Bool := false
  deriving DecidableEq, Repr

structure Setup where
  config : Config
  registry : Registry Factory
  /-- The constructions that panic, by number. -/
  broken : List Nat
  startLimit : Nat

/-- A dispatch on its way to the worker. -/
structure Task where
  id : DispatchId
  request : Request
  input : CryptoInput
  token : Token
  /-- Whether its callback needs a surface. -/
  waits : Bool
  deriving DecidableEq

def Task.span (t : Task) : Span := ⟨t.id, t.request.kind⟩

inductive Stage where
  | idle
  | window (task : Task) (wake : Nat)
  /-- About to construct the operation; the token has been looked at. -/
  | ready (task : Task)
  /-- In the body of construction `n`, with these steps still to do. -/
  | running (task : Task) (n : Nat) (rest : List BodyStep) (wake : Nat)
  /-- Behind the body; without a result, it panicked. -/
  | leaving (task : Task) (result : Option Result)
  | ended
  | dead

inductive Owner where
  | held
  /-- Being shut down in the background. -/
  | closing
  | gone
  deriving DecidableEq, Repr

/-- What the worker and the bodies leave behind. -/
inductive WorkerNote where
  | created (n time : Nat)
  | ran (n : Nat) (request : Request) (input : CryptoInput) (hasToken : Bool)
  | stepped (n : Nat) (word : String) (reply : Reply)
  | shutdownDone (time : Nat)

/-- A point on the way of a dispatch through the worker. -/
inductive Milestone where
  /-- Taken in by the inbox, for the callback of that number. -/
  | submitted (callback : Nat)
  | taken
  | checked (cancelled : Bool)
  /-- Its factory was called, as construction `n`. -/
  | constructed (n : Nat)
  /-- Its operation has looked whether it is cancelled. -/
  | looked (cancelled : Bool)
  /-- Its operation is over; without a result, it panicked. -/
  | returned (result : Option Result)
  | discarded
  deriving DecidableEq, Repr

inductive Happening where
  | sent (message : Message Command)
  /-- A message sent after delivery had ended. -/
  | lost (message : Message Command)
  | told (callback : Nat) (event : Event)
  | did (callback : Nat) (word : String) (reply : Reply)
  | note (note : WorkerNote)
  | log (record : LogRecord)
  | reached (task : Task) (milestone : Milestone) (time : Nat)
  /-- A dispatch was cancelled through its handle, for the first time or again. -/
  | cancelled (id : DispatchId)
  /-- What is sent next goes through a sink that an operation has kept. -/
  | late (event : Event)
  | stopping
  | tornDown

structure Session where
  clock : Nat
  owner : Owner
  /-- Whether there is anything for worker and delivery to run on. -/
  alive : Bool
  /-- How many starts there were; the next callback gets this number. -/
  starts : Nat
  nextId : DispatchId
  tokens : TokenPool
  handles : List (DispatchId × Token)
  inbox : Inbox Task
  stage : Stage
  turn : Turn
  constructed : Nat
  phase : Phase
  mailbox : List (Message Command)
  callbacks : Callbacks Command
  /-- The sinks kept by operations, each with its dispatch while it is held. -/
  sinks : List (Option DispatchId)
  store : KeyStore
  /-- What has happened so far, the latest first. -/
  trail : List Happening

namespace Session

def start : Session where
  clock := 0
  owner := .held
  alive := true
  starts := 0
  nextId := 1
  tokens := .empty
  handles := []
  inbox := .empty
  stage := .idle
  turn := .first
  constructed := 0
  phase := .alive
  mailbox := []
  callbacks := .none
  sinks := []
  store := .empty
  trail := []

def history (s : Session) : List Happening := s.trail.reverse

def record (s : Session) (h : Happening) : Session := { s with trail := h :: s.trail }

@[simp] theorem history_record (s : Session) (h : Happening) :
    (s.record h).history = s.history ++ [h] := by
  simp [history, record]

def log (s : Session) (event : LogEvent) : Session := s.record (.log ⟨s.clock, none, event⟩)

def logWithin (s : Session) (task : Task) (event : LogEvent) : Session :=
  s.record (.log ⟨s.clock, some task.span, event⟩)

def note (s : Session) (n : WorkerNote) : Session := s.record (.note n)

def reach (s : Session) (task : Task) (milestone : Milestone) : Session :=
  s.record (.reached task milestone s.clock)

def send (s : Session) (m : Message Command) : Session :=
  if s.phase = .alive then { s with mailbox := s.mailbox ++ [m] }.record (.sent m)
  else s.record (.lost m)

def emit (s : Session) (id : DispatchId) (signal : Signal) : Session := s.send (.event ⟨id, signal⟩)

/-- Ends a dispatch that never began: its token is cancelled and its callback will be told. -/
def refuse (s : Session) (id : DispatchId) (token : Token) : Session :=
  { s with tokens := s.tokens.cancel token }.emit id (.finished .cancelledBeforeStart)

def signalStop (s : Session) (owner : Owner) : Session :=
  { s with owner := owner, inbox := s.inbox.stop }.record .stopping

def submit (s : Session) (callback : Nat) (task : Task) : Session :=
  let submitted := match s.inbox.submit task with
    | .ok inbox => ({ s with inbox := inbox }.reach task (.submitted callback)).log
        (.dispatchQueued task.id task.request.kind)
    | .error e => (s.log (.dispatchRefused task.id task.request.kind e)).refuse task.id task.token
  { submitted with handles := submitted.handles ++ [(task.id, task.token)] }

def allot (s : Session) : Session :=
  { s with nextId := s.nextId + 1, tokens := s.tokens.grow }

/-- Starts a request. A kind that is not registered is refused before an id is taken; a callback
that panics when it is asked about a surface uses up the id. -/
def startRequest (S : Setup) (s : Session) (request : Request) (input : CryptoInput)
    (surface : Surface) (callback : Callback Command) : Session × Reply :=
  match S.registry.resolve request.kind with
  | .error refusal => (s, .startPanicked callback.number (.unrecognized refusal))
  | .ok _ =>
    if surface = .panics then (s.allot, .startPanicked callback.number .surface)
    else
      (((s.allot).send (.attach s.nextId callback)).submit callback.number
        ⟨s.nextId, request, input, s.tokens.fresh, surface = .needed⟩,
        .started callback.number s.handles.length)

def cancel (s : Session) (handle : Nat) : Session × Reply :=
  match s.handles[handle]? with
  | none => (s, .refused .noHandle)
  | some (id, token) =>
    if s.tokens.isCancelled token then (s.record (.cancelled id), .ok)
    else
      (({ s with tokens := s.tokens.cancel token }.record (.cancelled id)).log
        (.cancellationRequested id), .ok)

def perform (S : Setup) (s : Session) : Command → Session × Reply
  | .start request input surface panicsOn reactions =>
    if S.startLimit ≤ s.starts then (s, .refused .tooManyStarts)
    else if s.owner = .held then
      { s with starts := s.starts + 1 }.startRequest S request input surface
        ⟨s.starts, panicsOn, reactions⟩
    else ({ s with starts := s.starts + 1 }, .refused .gone)
  | .cancel handle => s.cancel handle
  | .drop =>
    if s.owner = .held then (s.signalStop .gone, .dropped)
    else (s, .refused .gone)
  | .unreadable _ fault => (s, .refused (.fault fault))

def sinkHeld (s : Session) (sink : Nat) : Option DispatchId := s.sinks[sink]?.join

def noSinkHeld (s : Session) : Bool := s.sinks.all Option.isNone

def ask (s : Session) (step : StoreStep) : Session × Reply :=
  ({ s with store := (s.store.step step).1 }, .store (s.store.step step).2)

end Session
end SerialDispatch
