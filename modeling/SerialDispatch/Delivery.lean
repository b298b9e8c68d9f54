import SerialDispatch.Signal

/-!
# Delivery of signals

Registrations of callbacks and events travel in one mailbox. Delivery takes from it in batches: all
that waits when it coalesces, one message otherwise. The registrations of a batch take effect before
its events. A finished signal takes its callback off the register, so it is the last signal that a
callback sees; an event whose dispatch has no callback is unclaimed.

A callback may panic, which ends delivery for good. It may also hold reactions, of a type left open
here, for the first call of each trigger.
-/
namespace SerialDispatch

structure Callback (α : Type) where
  number : Nat
  panicsOn : Option Trigger
  reactions : List (Trigger × List α)

namespace Callback

variable {α : Type}

/-- What the callback does when it is called. -/
def reaction (c : Callback α) (t : Trigger) : List α := (c.reactions.lookup t).getD []

/-- The callback after a call: the reaction is used up. -/
def after (c : Callback α) (t : Trigger) : Callback α :=
  { c with reactions := c.reactions.filter fun r => r.1 ≠ t }

end Callback

/-- The callbacks registered, each under the dispatch whose signals it gets. -/
abbrev Callbacks (α : Type) : Type := List (DispatchId × Callback α)

namespace Callbacks

variable {α : Type}

def none : Callbacks α := []

def find? (cs : Callbacks α) (id : DispatchId) : Option (Callback α) := cs.lookup id

def remove (cs : Callbacks α) (id : DispatchId) : Callbacks α := cs.filter fun c => c.1 ≠ id

/-- Registers a callback, in the place of an earlier one if there is one. -/
def attach (cs : Callbacks α) (id : DispatchId) (c : Callback α) : Callbacks α :=
  (id, c) :: cs.remove id

/-- The register after an event has been brought to its callback. -/
def after (cs : Callbacks α) (e : Event) : Callbacks α :=
  match e.signal.trigger, cs.find? e.id with
  | .finished, _ => cs.remove e.id
  | t, some c => cs.attach e.id (c.after t)
  | _, Option.none => cs

end Callbacks

/-- What travels in the mailbox. -/
inductive Message (α : Type) where
  | attach (id : DispatchId) (callback : Callback α)
  | event (e : Event)

namespace Message

variable {α : Type}

def event? : Message α → Option Event
  | .attach .. => Option.none
  | .event e => some e

def registration? : Message α → Option (DispatchId × Callback α)
  | .attach id callback => some (id, callback)
  | .event _ => Option.none

/-- The register after the registrations of a batch. -/
def register (cs : Callbacks α) : Message α → Callbacks α
  | .attach id c => cs.attach id c
  | .event _ => cs

/-- The next batch and what stays in the mailbox. -/
def nextBatch (coalescing : Bool) (mailbox : List (Message α)) :
    List (Message α) × List (Message α) :=
  if coalescing then (mailbox, []) else (mailbox.take 1, mailbox.drop 1)

def registered (batch : List (Message α)) (cs : Callbacks α) : Callbacks α :=
  batch.foldl register cs

/-- The events of a batch that are to be delivered. -/
def events (coalescing : Bool) (batch : List (Message α)) : List Event :=
  let events := batch.filterMap event?
  if coalescing then Event.coalesce events else events

theorem nextBatch_rest_lt (coalescing : Bool) {mailbox : List (Message α)} (h : mailbox ≠ []) :
    (nextBatch coalescing mailbox).2.length < mailbox.length := by
  cases mailbox with
  | nil => exact absurd rfl h
  | cons m rest => cases coalescing <;> simp [nextBatch]

end Message

/-- Whether delivery still takes messages. -/
inductive Phase where
  | alive
  /-- A callback has panicked. -/
  | panicked
  /-- What delivery ran on is gone. -/
  | vanished
  deriving DecidableEq, Repr

end SerialDispatch
