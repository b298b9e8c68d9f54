import SerialDispatch.Delivery
import SerialDispatch.KeyStore
import SerialDispatch.Json.Reader
import SerialDispatch.Registry

/-!
# Scripts of dispatcher sessions

What callers, callbacks and operations do with a dispatcher is written down as scripts. A line of a
script that could not be read stays in its place, and is answered with its fault when its turn
comes.
-/
namespace SerialDispatch

inductive ScriptFault where
  | unknownStep
  | badField
  | undecodable (error : DecodeError)
  deriving DecidableEq, Repr

/-- What a callback says when it is asked whether it needs a surface to show progress on. -/
inductive Surface where
  | unneeded
  | needed
  | panics
  deriving DecidableEq, Repr

inductive Command where
  | start (request : Request) (input : CryptoInput) (surface : Surface) (panicsOn : Option Trigger)
      (reactions : List (Trigger × List Command))
  | cancel (handle : Nat)
  | drop
  | unreadable (word : String) (fault : ScriptFault)

def Command.word : Command → String
  | .start .. => "start"
  | .cancel _ => "cancel"
  | .drop => "drop"
  | .unreadable word _ => word

inductive BodyStep where
  | progress (update : Progress)
  | prevent
  /-- Gives way, so that all that was sent is delivered now. -/
  | flush
  | work (duration : Nat)
  | poll
  /-- Ends the operation if it is cancelled, after so many steps by its own count. -/
  | stopIfCancelled (steps : Nat)
  /-- Keeps a sink beyond the end of the operation. -/
  | leak
  | panic
  /-- Ends the operation with a result, of the kind of the request unless another is given. -/
  | finish (kind : Option Kind) (status : Status) (log : List LogEntry)
  | store (step : StoreStep)
  | command (command : Command)
  /-- Begins to shut the dispatcher down, gives way, and goes on without waiting for the end. -/
  | shutdown
  | unreadable (word : String) (fault : ScriptFault)

inductive CallerStep where
  | command (command : Command)
  | sleep (duration : Nat)
  | shutdown
  | lateProgress (sink : Nat) (update : Progress)
  | latePrevent (sink : Nat)
  | release (sink : Nat)
  | store (step : StoreStep)
  /-- Takes away what worker and delivery run on. -/
  | teardown
  | unreadable (fault : ScriptFault)

/-- How many steps of a session a step of a body may take. -/
def BodyStep.cost : BodyStep → Nat
  | .work _ => 2
  | .shutdown => 3
  | _ => 1

def total : List Nat → Nat
  | [] => 0
  | n :: rest => n + total rest

@[simp] theorem total_cons (n : Nat) (ns : List Nat) : total (n :: ns) = n + total ns := rfl

@[simp] theorem total_append (ms ns : List Nat) : total (ms ++ ns) = total ms + total ns := by
  induction ms with
  | nil => exact (Nat.zero_add _).symm
  | cons m rest ih => simp only [List.cons_append, total_cons, ih, Nat.add_assoc]

theorem le_total_of_mem {n : Nat} {ns : List Nat} (h : n ∈ ns) : n ≤ total ns := by
  induction ns with
  | nil => cases h
  | cons m rest ih =>
    rw [total_cons]
    rcases List.mem_cons.1 h with rfl | h
    · exact Nat.le_add_right _ _
    · exact Nat.le_trans (ih h) (Nat.le_add_left _ _)

def BodyStep.totalCost (steps : List BodyStep) : Nat := total (steps.map BodyStep.cost)

theorem BodyStep.cost_pos (step : BodyStep) : 1 ≤ step.cost := by
  cases step <;> simp [BodyStep.cost]

/-- What makes the operations of a kind: a body for every request, none above a bound. -/
structure Factory where
  body : Request → List BodyStep
  bound : Nat
  cost_le : ∀ request, BodyStep.totalCost (body request) ≤ bound

/-- Gives out bodies from a list; nothing to do, where there is none to choose. -/
def Factory.ofBodies (bodies : List (List BodyStep)) (choose : Request → Option Nat) : Factory where
  body request := ((choose request).bind fun i => bodies[i]?).getD []
  bound := total (bodies.map BodyStep.totalCost)
  cost_le request := by
    cases hc : (choose request).bind fun i => bodies[i]? with
    | none => exact Nat.zero_le _
    | some body =>
      obtain ⟨i, _, hi⟩ := Option.bind_eq_some_iff.1 hc
      exact le_total_of_mem (List.mem_map_of_mem (List.mem_of_getElem? hi))

inductive StartPanic where
  | unrecognized (refusal : Unrecognized)
  | surface
  deriving DecidableEq, Repr

def StartPanic.message : StartPanic → String
  | .unrecognized refusal => refusal.message
  | .surface => "ui panic"

inductive Refusal where
  | gone
  | noHandle
  | noSink
  | noRuntime
  | tooManyStarts
  | fault (f : ScriptFault)
  deriving DecidableEq, Repr

inductive Reply where
  | ok
  | dropped
  | stopped
  | pending
  | started (callback handle : Nat)
  | startPanicked (callback : Nat) (panic : StartPanic)
  | flag (value : Bool)
  | sink (number : Nat)
  | store (reply : StoreReply)
  | refused (why : Refusal)
  deriving DecidableEq, Repr

end SerialDispatch
