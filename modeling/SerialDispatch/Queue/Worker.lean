import SerialDispatch.Log
import SerialDispatch.Queue.Inbox
import SerialDispatch.Timer

/-!
# A serial queue on a clock

One worker takes tasks from an inbox, one at a time and in order, and has them run by a handler.
Before each task it looks for the signal to stop; once it has seen it, it closes the inbox, has what
waits discarded, calls the shutdown hook and ends. Whatever the handler does may take time, and it
may panic, which ends the worker at once.

`SerialQueue.next?` is one step of the worker, if there is one to be done before a given time, and
`SerialQueue.run` does all of them. At the given time itself the caller goes first. The clock moves
only to the end of what the handler is doing or of a wait. A caller that sleeps for no time does not
give way.
-/
namespace SerialDispatch

/-- What a handler is asked to do. -/
inductive Duty (τ : Type) where
  | run (task : τ)
  | discard (task : τ)
  | shutdown
  deriving DecidableEq, Repr

/-- How long a handler takes, and what it is like afterwards; without that, it panics. -/
structure Conduct (σ : Type) where
  duration : Nat
  after : Option σ

/-- What a handler does in each of its states. -/
structure Runnable (τ σ : Type) where
  run : σ → τ → Conduct σ
  discard : σ → τ → Conduct σ
  shutdown : σ → Conduct σ

namespace Runnable

variable {τ σ : Type}

def perform (R : Runnable τ σ) (handler : σ) : Duty τ → Conduct σ
  | .run task => R.run handler task
  | .discard task => R.discard handler task
  | .shutdown => R.shutdown handler

end Runnable

inductive QueueEvent (τ : Type) where
  | began (duty : Duty τ) (time : Nat)
  | ended (duty : Duty τ) (time : Nat)
  /-- The handler panicked. -/
  | broke (duty : Duty τ) (time : Nat)
  | log (record : LogRecord)

/-- What the worker is doing. -/
inductive QueueWorker (τ σ : Type) where
  | idle
  /-- The handler is at a duty until a time, and what it will be like then. -/
  | busy (duty : Duty τ) (endsAt : Nat) (after : Option σ)
  /-- The signal to stop was seen; what waits is still to be discarded. -/
  | draining
  | ended
  | dead

/-- What is left of the queue on the caller's side. -/
inductive QueueOwner where
  | running
  /-- Stopped, and the worker's end seen or no longer waited for. -/
  | stopped
  | gone
  deriving DecidableEq, Repr

structure SerialQueue (τ σ : Type) where
  clock : Nat
  owner : QueueOwner
  inbox : Inbox τ
  worker : QueueWorker τ σ
  handler : σ
  /-- What has happened so far, in order. -/
  past : List (QueueEvent τ)

/-- What a caller does with a queue. -/
inductive QueueCall (τ : Type) where
  | submit (task : τ)
  | sleep (duration : Nat)
  | stop
  | drop
  deriving DecidableEq, Repr

inductive QueueReply where
  | queued
  | refused (error : SubmitError)
  | slept
  | stopped
  | pending
  | dropped (wasThere : Bool)
  | gone
  deriving DecidableEq, Repr

/-- Where a duty that is done leaves the worker. -/
def Duty.next {τ σ : Type} : Duty τ → QueueWorker τ σ
  | .run _ => .idle
  | .discard _ => .draining
  | .shutdown => .ended

def QueueWorker.isOver {τ σ : Type} : QueueWorker τ σ → Bool
  | .ended | .dead => true
  | _ => false

namespace SerialQueue

variable {τ σ : Type}

def start (handler : σ) : SerialQueue τ σ := ⟨0, .running, .empty, .idle, handler, []⟩

/-- How long a stop waits for the worker to end. -/
def patience : Nat := 10000

def record (q : SerialQueue τ σ) (e : QueueEvent τ) : SerialQueue τ σ :=
  { q with past := q.past ++ [e] }

/-- The worker is gone in the middle of its work. -/
def die (q : SerialQueue τ σ) : SerialQueue τ σ :=
  { q with worker := .dead, inbox := q.inbox.close }

/-- The handler turns to a duty. -/
def begin (R : Runnable τ σ) (q : SerialQueue τ σ) (duty : Duty τ) : SerialQueue τ σ :=
  let conduct := R.perform q.handler duty
  { q.record (.began duty q.clock) with
    worker := .busy duty (q.clock + conduct.duration) conduct.after }

/-- The handler is done with a duty, or panics. -/
def conclude (q : SerialQueue τ σ) (duty : Duty τ) : Option σ → SerialQueue τ σ
  | none => (q.record (.broke duty q.clock)).die
  | some handler =>
    { q.record (.ended duty q.clock) with worker := duty.next, handler := handler }

/-- Takes a task from the inbox, to be run or to be discarded. -/
def take (R : Runnable τ σ) (q : SerialQueue τ σ) (duty : Duty τ) (rest : List τ) :
    SerialQueue τ σ :=
  { q with inbox := { q.inbox with waiting := rest } }.begin R duty

/-- The signal to stop is seen: nothing is taken in any more. -/
def shut (q : SerialQueue τ σ) : SerialQueue τ σ :=
  { q with worker := .draining, inbox := { q.inbox with closed := true } }

/-- The next step of the worker, unless its time is still to come and not before `limit`. -/
def next? (R : Runnable τ σ) (limit : Option Nat) (q : SerialQueue τ σ) :
    Option (SerialQueue τ σ) :=
  match q.worker with
  | .idle =>
    if q.inbox.stopping then some q.shut
    else match q.inbox.waiting with
      | [] => none
      | task :: rest => some (q.take R (.run task) rest)
  | .draining =>
    match q.inbox.waiting with
    | [] => some (q.begin R .shutdown)
    | task :: rest => some (q.take R (.discard task) rest)
  | .busy duty endsAt after =>
    if endsAt ≤ q.clock || Timer.isBefore endsAt limit then
      some ({ q with clock := max q.clock endsAt }.conclude duty after)
    else none
  | .ended => none
  | .dead => none

/-- How many steps the worker has before it at most. -/
def load (q : SerialQueue τ σ) : Nat :=
  match q.worker with
  | .idle => 2 * q.inbox.waiting.length + 3
  | .draining => 2 * q.inbox.waiting.length + 2
  | .busy (.run _) _ _ => 2 * q.inbox.waiting.length + 4
  | .busy (.discard _) _ _ => 2 * q.inbox.waiting.length + 3
  | .busy .shutdown _ _ => 1
  | .ended => 0
  | .dead => 0

theorem load_conclude (q : SerialQueue τ σ) {duty : Duty τ} {endsAt : Nat} {after done : Option σ}
    (busy : q.worker = .busy duty endsAt after) (time : Nat) :
    ({ q with clock := time }.conclude duty done).load < q.load := by
  cases done with
  | none => cases duty <;> simp [conclude, record, die, load, busy]
  | some handler => cases duty <;> simp [conclude, record, Duty.next, load, busy]

theorem load_next {R : Runnable τ σ} {limit : Option Nat} {q t : SerialQueue τ σ}
    (h : q.next? R limit = some t) : t.load < q.load := by
  unfold next? at h
  split at h
  · rename_i idle
    split at h
    · cases h
      simp [shut, load, idle]
    · split at h
      · cases h
      · rename_i task rest hq
        cases h
        simp only [take, begin, record, load, idle, hq, List.length_cons]
        omega
  · rename_i draining
    split at h
    · rename_i hq
      cases h
      simp [begin, record, load, draining, hq]
    · rename_i task rest hq
      cases h
      simp only [take, begin, record, load, draining, hq, List.length_cons]
      omega
  · rename_i busy
    split at h
    · cases h
      exact load_conclude q busy _
    · cases h
  · cases h
  · cases h

/-- All the steps of the worker before `limit`. -/
def run (R : Runnable τ σ) (limit : Option Nat) (q : SerialQueue τ σ) : SerialQueue τ σ :=
  match _h : q.next? R limit with
  | none => q
  | some t => t.run R limit
termination_by q.load
decreasing_by exact load_next _h

/-- The caller lets go of the queue, which is the signal to stop. -/
def letGo (q : SerialQueue τ σ) (owner : QueueOwner) : SerialQueue τ σ :=
  { q with owner := owner, inbox := q.inbox.stop }

/-- The caller lets go of the queue and waits for the worker. -/
def stop (R : Runnable τ σ) (q : SerialQueue τ σ) : SerialQueue τ σ × QueueReply :=
  let ran := (q.letGo .stopped).run R (some (q.clock + patience))
  match ran.worker with
  | .ended => (ran, .stopped)
  | .dead => (ran.record (.log ⟨ran.clock, none, .workerDied⟩), .stopped)
  | _ => ({ ran with clock := q.clock + patience }, .pending)

def step (R : Runnable τ σ) (q : SerialQueue τ σ) : QueueCall τ → SerialQueue τ σ × QueueReply
  | .submit task =>
    if q.owner = .gone then (q, .gone)
    else match q.inbox.submit task with
      | .ok inbox => ({ q with inbox := inbox }, .queued)
      | .error e => (q, .refused e)
  | .sleep duration =>
    if duration = 0 then (q, .slept)
    else ({ q.run R (some (q.clock + duration)) with clock := q.clock + duration }, .slept)
  | .stop =>
    match q.owner with
    | .running => q.stop R
    | .stopped => (q, .stopped)
    | .gone => (q, .gone)
  | .drop => (q.letGo .gone, .dropped (q.owner ≠ .gone))

/-- The queue after the calls of a caller. -/
def runScript (R : Runnable τ σ) (q : SerialQueue τ σ) (calls : List (QueueCall τ)) :
    SerialQueue τ σ :=
  calls.foldl (fun q call => (q.step R call).1) q

end SerialQueue
end SerialDispatch
