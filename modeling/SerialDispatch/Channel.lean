import SerialDispatch.Delivery
import SerialDispatch.Log

/-!
# The progress channel by itself

A channel that is driven step by step: callbacks are attached, sinks are made and used, and delivery
runs only when it is flushed or when the channel is closed. Closing waits for delivery to end, which
it does when no sink is held any more or when a callback has panicked.
-/
namespace SerialDispatch

/-- What happens in a channel. -/
inductive ChannelHappening where
  | sent (message : Message Empty)
  /-- A message sent after delivery had ended. -/
  | lost (message : Message Empty)
  | told (callback : Nat) (event : Event)
  | log (record : LogRecord)

/-- Whether the channel is held by its caller. -/
inductive Holding where
  | held
  | closing
  | closed
  deriving DecidableEq, Repr

structure Channel where
  coalescing : Bool
  clock : Nat
  holding : Holding
  phase : Phase
  mailbox : List (Message Empty)
  callbacks : Callbacks Empty
  /-- How many callbacks were ever attached. -/
  attached : Nat
  /-- The sinks ever made, each with its dispatch while it is held. -/
  sinks : List (Option DispatchId)
  history : List ChannelHappening

inductive ChannelStep where
  | attach (id : DispatchId) (panicsOn : Option Trigger)
  | sink (id : DispatchId)
  | progress (sink : Nat) (update : Progress)
  | prevent (sink : Nat)
  | finish (id : DispatchId) (outcome : Outcome)
  | dropSink (sink : Nat)
  | flush
  | close
  deriving DecidableEq, Repr

inductive ChannelReply where
  | done
  | attached (callback : Nat)
  | sink (number : Nat)
  | dropped (wasHeld : Bool)
  | ended
  | deliveryPanicked
  | pending
  | refusedClosed
  | noSink
  deriving DecidableEq, Repr

namespace Channel

def start (coalescing : Bool) : Channel where
  coalescing := coalescing
  clock := 0
  holding := .held
  phase := .alive
  mailbox := []
  callbacks := .none
  attached := 0
  sinks := []
  history := []

/-- How long closing waits for delivery to end. -/
def patience : Nat := 10000

def record (c : Channel) (h : ChannelHappening) : Channel := { c with history := c.history ++ [h] }

def send (c : Channel) (m : Message Empty) : Channel :=
  if c.phase = .alive then { c with mailbox := c.mailbox ++ [m] }.record (.sent m)
  else c.record (.lost m)

/-- A callback panics: what waits is gone with the delivery. -/
def panic (c : Channel) : Channel :=
  { c with phase := .panicked, mailbox := [], callbacks := .none }

/-- Brings one event to its callback. -/
def deliverEvent (c : Channel) (e : Event) : Channel :=
  match c.callbacks.find? e.id with
  | none => c.record (.log ⟨c.clock, none, .unclaimed e.id e.signal.trigger⟩)
  | some callback =>
    let told := { c with callbacks := c.callbacks.after e }.record (.told callback.number e)
    if callback.panicsOn = some e.signal.trigger then told.panic else told

/-- Brings events to their callbacks until one of them panics. -/
def deliverEvents (c : Channel) : List Event → Channel
  | [] => c
  | e :: rest =>
    let next := c.deliverEvent e
    if next.phase = .alive then next.deliverEvents rest else next

/-- Delivers a batch, of which the rest of the mailbox is left. -/
def deliverBatch (c : Channel) (batch rest : List (Message Empty)) : Channel :=
  { c with mailbox := rest, callbacks := Message.registered batch c.callbacks }.deliverEvents
    (Message.events c.coalescing batch)

/-- Delivers message by message. -/
def deliverEach (c : Channel) : List (Message Empty) → Channel
  | [] => c
  | m :: rest =>
    let next := c.deliverBatch [m] rest
    if next.phase = .alive then next.deliverEach rest else next

/-- Delivers all that waits. -/
def drain (c : Channel) : Channel :=
  if c.coalescing then c.deliverBatch c.mailbox [] else c.deliverEach c.mailbox

def sinkHeld (c : Channel) (sink : Nat) : Option DispatchId := c.sinks[sink]?.join

def noSinkHeld (c : Channel) : Bool := c.sinks.all Option.isNone

/-- Sends a signal through a sink. -/
def through (c : Channel) (sink : Nat) (signal : Signal) : Channel × ChannelReply :=
  match c.sinkHeld sink with
  | some id => (c.send (.event ⟨id, signal⟩), .done)
  | none => (c, .noSink)

/-- The answer of a channel that has been let go of and drained. -/
def closed (c : Channel) : Channel × ChannelReply :=
  if c.phase = .alive then
    if c.noSinkHeld then ({ c with holding := .closed }, .ended)
    else ({ c with clock := c.clock + patience }, .pending)
  else ({ c with holding := .closed }, .deliveryPanicked)

def step (c : Channel) : ChannelStep → Channel × ChannelReply
  | .attach id panicsOn =>
    if c.holding = .held then
      ({ c with attached := c.attached + 1 }.send (.attach id ⟨c.attached, panicsOn, []⟩),
        .attached c.attached)
    else (c, .refusedClosed)
  | .sink id =>
    if c.holding = .held then ({ c with sinks := c.sinks ++ [some id] }, .sink c.sinks.length)
    else (c, .refusedClosed)
  | .progress sink update => c.through sink (.progress update)
  | .prevent sink => c.through sink .preventCancel
  | .finish id outcome =>
    if c.holding = .held then (c.send (.event ⟨id, .finished outcome⟩), .done)
    else (c, .refusedClosed)
  | .dropSink sink =>
    if sink < c.sinks.length then
      ({ c with sinks := c.sinks.set sink none }, .dropped (c.sinkHeld sink).isSome)
    else (c, .noSink)
  | .flush =>
    let drained := c.drain
    ({ drained with clock := drained.clock + 1 }, .done)
  | .close =>
    if c.holding = .closed then (c, .refusedClosed)
    else { c with holding := .closing }.drain.closed

end Channel
end SerialDispatch
