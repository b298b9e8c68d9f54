import Mathlib.Tactic.Common
import SerialDispatch.Dispatcher.Run
import SerialDispatch.Proofs.Delivery.Relay

/-!
# Reading the history of a dispatcher session

What a session has done is read off its history: the dispatches that were accepted, the milestones
and the signals of each of them, the messages that were sent, and the calls of the callbacks. All of
these are read happening by happening, so a longer history only adds to them.
-/
namespace SerialDispatch

/-- A dispatch that was accepted, and the number of its callback. -/
structure Slip where
  task : Task
  callback : Nat
  deriving DecidableEq

namespace Slip

def id (slip : Slip) : DispatchId := slip.task.id

def kind (slip : Slip) : Kind := slip.task.request.kind

end Slip

/-- An operation that was begun: its number, the request and the input that it was given, and
whether it was given a token. -/
structure Operation where
  number : Nat
  request : Request
  input : CryptoInput
  hasToken : Bool
  deriving DecidableEq

namespace Happening

/-- The message that was sent, whether or not delivery still took it. -/
def message? : Happening → Option (Message Command)
  | .sent m => some m
  | .lost m => some m
  | _ => none

def told? : Happening → Option (Nat × Event)
  | .told callback e => some (callback, e)
  | _ => none

def log? : Happening → Option LogRecord
  | .log record => some record
  | _ => none

def accepted? : Happening → Option Slip
  | .reached task (.submitted callback) _ => some ⟨task, callback⟩
  | _ => none

def cancelled? : Happening → Option DispatchId
  | .cancelled id => some id
  | _ => none

def begun? : Happening → Option Operation
  | .note (.ran n request input hasToken) => some ⟨n, request, input, hasToken⟩
  | _ => none

/-- The milestone of a dispatch, if it is one. -/
def milestone? (id : DispatchId) : Happening → Option Milestone
  | .reached task milestone _ => if task.id = id then some milestone else none
  | _ => none

/-- The signal sent for a dispatch, if it is one. -/
def signal? (id : DispatchId) (h : Happening) : Option Signal :=
  match h.message? with
  | some (.event e) => if e.id = id then some e.signal else none
  | _ => none

/-- Whether the worker is signalled to stop. -/
def isStopping : Happening → Bool
  | .stopping => true
  | _ => false

/-- Whether worker and delivery vanish. -/
def isTearing : Happening → Bool
  | .tornDown => true
  | _ => false

/-- What moves no dispatch on. -/
def isSilent : Happening → Bool
  | .told .. | .did .. | .log _ => true
  | .note (.ran ..) | .note (.stepped ..) => false
  | .note _ => true
  | _ => false

end Happening

section Views

variable (history more : List Happening) (h : Happening) (id : DispatchId)

/-- The dispatches that were accepted, in order of submission. -/
def acceptedIn : List Slip := history.filterMap Happening.accepted?

/-- The messages that were sent, in order. -/
def messagesIn : List (Message Command) := history.filterMap Happening.message?

/-- What is logged, within the span of a dispatch or not. -/
def logsIn : List LogRecord := history.filterMap Happening.log?

/-- The calls of the callbacks. -/
def toldIn : List (Nat × Event) := history.filterMap Happening.told?

/-- The dispatches that were cancelled through a handle, each as often as that was done. -/
def cancelledIn : List DispatchId := history.filterMap Happening.cancelled?

/-- The operations that were begun, in order. -/
def begunIn : List Operation := history.filterMap Happening.begun?

/-- The milestones of a dispatch, in order. -/
def milestonesIn : List Milestone := history.filterMap (Happening.milestone? id)

/-- The signals sent for a dispatch, in order. -/
def signalsIn : List Signal := history.filterMap (Happening.signal? id)

@[simp] theorem acceptedIn_append :
    acceptedIn (history ++ more) = acceptedIn history ++ acceptedIn more := List.filterMap_append

@[simp] theorem messagesIn_append :
    messagesIn (history ++ more) = messagesIn history ++ messagesIn more := List.filterMap_append

@[simp] theorem toldIn_append :
    toldIn (history ++ more) = toldIn history ++ toldIn more := List.filterMap_append

@[simp] theorem cancelledIn_append :
    cancelledIn (history ++ more) = cancelledIn history ++ cancelledIn more :=
  List.filterMap_append

@[simp] theorem begunIn_append :
    begunIn (history ++ more) = begunIn history ++ begunIn more := List.filterMap_append

@[simp] theorem milestonesIn_append :
    milestonesIn (history ++ more) id = milestonesIn history id ++ milestonesIn more id :=
  List.filterMap_append

@[simp] theorem signalsIn_append :
    signalsIn (history ++ more) id = signalsIn history id ++ signalsIn more id :=
  List.filterMap_append

theorem filterMap_singleton {α β : Type} (f : α → Option β) (a : α) :
    [a].filterMap f = (f a).toList := by
  cases hf : f a <;> simp [hf]

@[simp] theorem acceptedIn_singleton : acceptedIn [h] = h.accepted?.toList :=
  filterMap_singleton _ h

@[simp] theorem messagesIn_singleton : messagesIn [h] = h.message?.toList :=
  filterMap_singleton _ h

@[simp] theorem toldIn_singleton : toldIn [h] = h.told?.toList := filterMap_singleton _ h

@[simp] theorem cancelledIn_singleton : cancelledIn [h] = h.cancelled?.toList :=
  filterMap_singleton _ h

@[simp] theorem begunIn_singleton : begunIn [h] = h.begun?.toList := filterMap_singleton _ h

@[simp] theorem milestonesIn_singleton : milestonesIn [h] id = (h.milestone? id).toList :=
  filterMap_singleton _ h

@[simp] theorem signalsIn_singleton : signalsIn [h] id = (h.signal? id).toList :=
  filterMap_singleton _ h

end Views

/-- The signals down to the first finished one. -/
def untilFinished : List Signal → List Signal
  | [] => []
  | .finished outcome :: _ => [.finished outcome]
  | signal :: rest => signal :: untilFinished rest

theorem untilFinished_append {signals : List Signal}
    (unfinished : ∀ s ∈ signals, s.isFinished = false) (outcome : Outcome) (after : List Signal) :
    untilFinished (signals ++ .finished outcome :: after) = signals ++ [.finished outcome] := by
  induction signals with
  | nil => rfl
  | cons s rest ih =>
    have hs := unfinished s List.mem_cons_self
    have hrest := ih fun k hk => unfinished k (List.mem_cons_of_mem s hk)
    cases s with
    | finished o => cases hs
    | progress update => simp only [List.cons_append, untilFinished, hrest]
    | preventCancel => simp only [List.cons_append, untilFinished, hrest]

namespace BodyStep

/-- What a body sends and how it ends, given what it sees each time it looks whether it is
cancelled. Without a result, it panics. -/
def evaluate (kind : Kind) : List BodyStep → List Bool → List Signal × Option Result
  | [], _ => ([], some ⟨kind, .ok, []⟩)
  | .progress update :: rest, looks =>
    (.progress update :: (evaluate kind rest looks).1, (evaluate kind rest looks).2)
  | .prevent :: rest, looks =>
    (.preventCancel :: (evaluate kind rest looks).1, (evaluate kind rest looks).2)
  | .poll :: rest, looks => evaluate kind rest looks.tail
  | .stopIfCancelled steps :: rest, looks =>
    if looks.headD false then ([], some (.stoppedAfter kind steps))
    else evaluate kind rest looks.tail
  | .panic :: _, _ => ([], none)
  | .finish other status log :: _, _ => ([], some ⟨other.getD kind, status, log⟩)
  | .flush :: rest, looks => evaluate kind rest looks
  | .work _ :: rest, looks => evaluate kind rest looks
  | .leak :: rest, looks => evaluate kind rest looks
  | .store _ :: rest, looks => evaluate kind rest looks
  | .command _ :: rest, looks => evaluate kind rest looks
  | .shutdown :: rest, looks => evaluate kind rest looks
  | .unreadable _ _ :: rest, looks => evaluate kind rest looks

end BodyStep

end SerialDispatch
