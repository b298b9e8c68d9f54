import SerialDispatch.Log
import SerialDispatch.Proofs.Delivery.Relay

/-!
# Messages handled one by one

A `Clerk` handles messages in the order in which they come: a registration puts a callback in charge
of a dispatch, an event is told to the callback in charge, or else logged as unclaimed. The first
callback that panics when it is called halts the clerk for good. How delivery batches its messages
does not come into it.
-/
namespace SerialDispatch

/-- Who is called for a dispatch, and by which calls it panics. -/
structure Listener where
  number : Nat
  panicsOn : Option Trigger
  deriving DecidableEq

def Callback.listener {α : Type} (c : Callback α) : Listener := ⟨c.number, c.panicsOn⟩

namespace Callbacks

variable {α : Type} (cs : Callbacks α) (id other : DispatchId)

/-- Who is in charge of a dispatch. -/
def listener? : Option Listener := (cs.find? id).map Callback.listener

theorem listener_attach (callback : Callback α) : (cs.attach id callback).listener? other =
    if other = id then some callback.listener else cs.listener? other := by
  unfold listener?
  rw [find_attach]
  by_cases ho : other = id <;> simp [ho]

theorem listener_after {cs : Callbacks α} {e : Event} {callback : Callback α}
    (h : cs.find? e.id = some callback) : (cs.after e).listener? other =
      if e.signal.isFinished = true ∧ other = e.id then Option.none else cs.listener? other := by
  unfold listener?
  rw [find_after]
  by_cases ho : other = e.id
  · cases hs : e.signal with
    | finished outcome => simp [ho, Signal.trigger, Signal.isFinished]
    | progress update =>
      simp [ho, h, Signal.trigger, Signal.isFinished, Callback.after, Callback.listener]
    | preventCancel =>
      simp [ho, h, Signal.trigger, Signal.isFinished, Callback.after, Callback.listener]
  · simp [ho]

end Callbacks

/-- What is logged of an event that no callback is in charge of. -/
def Event.entry (e : Event) : LogEvent := .unclaimed e.id e.signal.trigger

/-- What has come of the messages handled so far. -/
structure Clerk where
  register : DispatchId → Option Listener
  /-- The calls of the callbacks. -/
  told : List (Nat × Event)
  /-- What was logged. -/
  logged : List LogEvent
  /-- A callback has panicked. -/
  halted : Bool

namespace Clerk

def start : Clerk := ⟨fun _ => none, [], [], false⟩

def attach (k : Clerk) (id : DispatchId) (l : Listener) : Clerk :=
  { k with register := fun other => if other = id then some l else k.register other }

/-- Tells a callback of an event. The terminal signal is the last that it is told, and nobody is
told anything after a panic. -/
def call (k : Clerk) (l : Listener) (e : Event) : Clerk :=
  if l.panicsOn = some e.signal.trigger then
    ⟨fun _ => none, k.told ++ [(l.number, e)], k.logged, true⟩
  else { k with
    told := k.told ++ [(l.number, e)]
    register := fun other =>
      if e.signal.isFinished = true ∧ other = e.id then none else k.register other }

variable {α : Type}

def handle (k : Clerk) (e : Event) : Clerk :=
  match k.register e.id with
  | none => { k with logged := k.logged ++ [e.entry] }
  | some l => k.call l e

/-- Handles one message, if nobody has panicked. -/
def pass (k : Clerk) (m : Message α) : Clerk :=
  if k.halted then k
  else match m with
    | .attach id callback => k.attach id callback.listener
    | .event e => k.handle e

def passAll (k : Clerk) (messages : List (Message α)) : Clerk := messages.foldl pass k

/-- Puts the callbacks of a batch in charge, ahead of its events. -/
def registered (k : Clerk) (batch : List (Message α)) : Clerk :=
  batch.foldl (fun k m => match m with
    | .attach id callback => k.attach id callback.listener
    | .event _ => k) k

variable {k : Clerk}

theorem passAll_append (k : Clerk) (first second : List (Message α)) :
    k.passAll (first ++ second) = (k.passAll first).passAll second := List.foldl_append

theorem pass_halted (h : k.halted = true) (m : Message α) : k.pass m = k := if_pos h

theorem passAll_halted (h : k.halted = true) (messages : List (Message α)) :
    k.passAll messages = k := by
  induction messages with
  | nil => rfl
  | cons m rest ih => rw [passAll, List.foldl_cons, pass_halted h]; exact ih

theorem pass_event (going : k.halted = false) (e : Event) :
    k.pass (.event e : Message α) = k.handle e := by
  rw [pass, going]
  rfl

theorem pass_attach (going : k.halted = false) (id : DispatchId) (callback : Callback α) :
    k.pass (.attach id callback) = k.attach id callback.listener := by
  rw [pass, going]
  rfl

/-- Registrations tell and log nothing. -/
theorem registered_same (k : Clerk) (batch : List (Message α)) :
    k.registered batch = { k with register := (k.registered batch).register } := by
  induction batch generalizing k with
  | nil => rfl
  | cons m rest ih =>
    cases m with
    | attach id callback => exact ih (k.attach id callback.listener)
    | event e => exact ih k

end Clerk
end SerialDispatch
