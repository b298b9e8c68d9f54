import Mathlib.Tactic.Common
import SerialDispatch.Queue.Worker

/-!
# Moments of a serial queue

What a queue has done is read off its past: the tasks started, finished and discarded, the calls of
the shutdown hook, and what panicked. `SerialQueue.Move` is one thing that worker or caller do, and
`SerialQueue.Path` is any number of them, with the tasks that were accepted on the way. Every moment
of a script lies on a path; main statement: `path_runScript`.
-/
namespace SerialDispatch

variable {τ σ : Type}

namespace QueueEvent

@[simp] def started? : QueueEvent τ → Option τ
  | .began (.run task) _ => some task
  | _ => none

@[simp] def finished? : QueueEvent τ → Option τ
  | .ended (.run task) _ => some task
  | _ => none

@[simp] def discarded? : QueueEvent τ → Option τ
  | .began (.discard task) _ => some task
  | _ => none

@[simp] def isHook : QueueEvent τ → Bool
  | .began .shutdown _ => true
  | _ => false

@[simp] def broken? : QueueEvent τ → Option (Duty τ)
  | .broke duty _ => some duty
  | _ => none

/-- The task that was run or discarded, if it is about one. -/
@[simp] def task? : QueueEvent τ → Option τ
  | .began duty _ | .ended duty _ | .broke duty _ =>
    match duty with
    | .run task | .discard task => some task
    | .shutdown => none
  | .log _ => none

end QueueEvent

section Views

variable (past more : List (QueueEvent τ)) (e : QueueEvent τ)

/-- The tasks whose run has begun, in order. -/
def startedIn : List τ := past.filterMap QueueEvent.started?

/-- The tasks whose run has come to its end, in order. -/
def finishedIn : List τ := past.filterMap QueueEvent.finished?

/-- The tasks handed over to be discarded, in order. -/
def discardedIn : List τ := past.filterMap QueueEvent.discarded?

/-- How often the shutdown hook was called. -/
def hookCallsIn : Nat := past.countP QueueEvent.isHook

/-- What the handler panicked over. -/
def brokenIn : List (Duty τ) := past.filterMap QueueEvent.broken?

@[simp] theorem startedIn_append :
    startedIn (past ++ more) = startedIn past ++ startedIn more := List.filterMap_append

@[simp] theorem finishedIn_append :
    finishedIn (past ++ more) = finishedIn past ++ finishedIn more := List.filterMap_append

@[simp] theorem discardedIn_append :
    discardedIn (past ++ more) = discardedIn past ++ discardedIn more := List.filterMap_append

@[simp] theorem hookCallsIn_append :
    hookCallsIn (past ++ more) = hookCallsIn past + hookCallsIn more := List.countP_append

@[simp] theorem brokenIn_append :
    brokenIn (past ++ more) = brokenIn past ++ brokenIn more := List.filterMap_append

@[simp] theorem startedIn_singleton : startedIn [e] = e.started?.toList := by
  rw [startedIn, List.filterMap_cons]
  cases e.started? <;> rfl

@[simp] theorem finishedIn_singleton : finishedIn [e] = e.finished?.toList := by
  rw [finishedIn, List.filterMap_cons]
  cases e.finished? <;> rfl

@[simp] theorem discardedIn_singleton : discardedIn [e] = e.discarded?.toList := by
  rw [discardedIn, List.filterMap_cons]
  cases e.discarded? <;> rfl

@[simp] theorem hookCallsIn_singleton : hookCallsIn [e] = e.isHook.toNat := by
  rw [hookCallsIn, List.countP_cons]
  cases e.isHook <;> rfl

@[simp] theorem brokenIn_singleton : brokenIn [e] = e.broken?.toList := by
  rw [brokenIn, List.filterMap_cons]
  cases e.broken? <;> rfl

end Views

namespace SerialQueue

variable {R : Runnable τ σ} {q t u : SerialQueue τ σ} {js ks accepted : List τ}

/-- One thing that worker or caller do, with the task that is accepted by it, if one is. What the
handler does may be different each time, so it may depend on anything. -/
inductive Move : SerialQueue τ σ → List τ → SerialQueue τ σ → Prop
  | submit {q : SerialQueue τ σ} {task : τ} {inbox : Inbox τ} (there : q.owner ≠ .gone)
      (taken : q.inbox.submit task = .ok inbox) : Move q [task] { q with inbox := inbox }
  | work {q t : SerialQueue τ σ} {R : Runnable τ σ} {limit : Option Nat}
      (next : q.next? R limit = some t) : Move q [] t
  /-- The clock goes on while nothing else happens. -/
  | wait {q : SerialQueue τ σ} (time : Nat) : Move q [] { q with clock := time }
  | letGo {q : SerialQueue τ σ} {owner : QueueOwner} (away : owner ≠ .running) :
      Move q [] (q.letGo owner)
  | report {q : SerialQueue τ σ} (log : LogRecord) (gone : q.worker = .dead) :
      Move q [] (q.record (.log log))

/-- Any number of moves, with the tasks accepted by them in order. -/
inductive Path (q : SerialQueue τ σ) : List τ → SerialQueue τ σ → Prop
  | here : Path q [] q
  | move {js accepted : List τ} {t u : SerialQueue τ σ} (path : Path q js t)
      (last : Move t accepted u) : Path q (js ++ accepted) u

namespace Path

/-- A move that accepts nothing leaves the accepted tasks as they are. -/
theorem idle_move (path : Path q js t) (last : Move t [] u) : Path q js u := by
  have h := path.move last
  rwa [List.append_nil] at h

theorem trans (first : Path q js t) (second : Path t ks u) : Path q (js ++ ks) u := by
  induction second with
  | here => rwa [List.append_nil]
  | move _ last ih =>
    rw [← List.append_assoc]
    exact ih.move last

end Path

/-- The worker takes any number of steps. -/
theorem path_run (R : Runnable τ σ) (limit : Option Nat) (q : SerialQueue τ σ) :
    Path q [] (q.run R limit) := by
  fun_induction run R limit q with
  | case1 q _ => exact .here
  | case2 q t next ih => exact (Path.here.idle_move (.work next)).trans ih

/-- A stop signals the worker and then lets it go on. -/
theorem path_letGo (R : Runnable τ σ) (q : SerialQueue τ σ) :
    Path (q.letGo .stopped) [] (q.stop R).1 := by
  have ran := path_run R (some (q.clock + patience)) (q.letGo .stopped)
  unfold stop
  generalize (q.letGo .stopped).run R (some (q.clock + patience)) = t at ran ⊢
  cases hw : t.worker with
  | ended => simpa only [hw] using ran
  | dead => simpa only [hw] using ran.idle_move (.report _ hw)
  | idle => simpa only [hw] using ran.idle_move (.wait _)
  | draining => simpa only [hw] using ran.idle_move (.wait _)
  | busy duty endsAt after => simpa only [hw] using ran.idle_move (.wait _)

theorem path_stop (R : Runnable τ σ) (q : SerialQueue τ σ) : Path q [] (q.stop R).1 := by
  have letGo : Path q [] (q.letGo .stopped) := Path.here.idle_move (.letGo (by decide))
  exact letGo.trans (path_letGo R q)

/-- The task that a call brings in: one that is submitted and not refused. -/
def acceptedBy (R : Runnable τ σ) (q : SerialQueue τ σ) (call : QueueCall τ) : List τ :=
  match call with
  | .submit task => if (q.step R call).2 = .queued then [task] else []
  | _ => []

/-- The tasks that a script brings in, in order. -/
def acceptedTasks (R : Runnable τ σ) (q : SerialQueue τ σ) : List (QueueCall τ) → List τ
  | [] => []
  | call :: rest => q.acceptedBy R call ++ (q.step R call).1.acceptedTasks R rest

theorem path_step (R : Runnable τ σ) (q : SerialQueue τ σ) (call : QueueCall τ) :
    Path q (q.acceptedBy R call) (q.step R call).1 := by
  cases call with
  | submit task =>
    by_cases hgone : q.owner = .gone
    · simpa [acceptedBy, step, hgone] using Path.here
    · cases hi : q.inbox.submit task with
      | ok inbox =>
        simpa [acceptedBy, step, hgone, hi] using Path.here.move (.submit hgone hi)
      | error e => simpa [acceptedBy, step, hgone, hi] using Path.here
  | sleep duration =>
    by_cases hd : duration = 0
    · simpa [acceptedBy, step, hd] using Path.here
    · have slept := (path_run R (some (q.clock + duration)) q).idle_move
        (.wait (q.clock + duration))
      simpa [acceptedBy, step, hd] using slept
  | stop =>
    cases ho : q.owner with
    | running => simpa only [acceptedBy, step, ho] using path_stop R q
    | stopped => simpa only [acceptedBy, step, ho] using Path.here
    | gone => simpa only [acceptedBy, step, ho] using Path.here
  | drop => exact Path.here.idle_move (.letGo (by decide))

/-- The moment that a script comes to lies on a path with the tasks that it brings in. -/
theorem path_runScript (R : Runnable τ σ) (q : SerialQueue τ σ) (calls : List (QueueCall τ)) :
    Path q (q.acceptedTasks R calls) (q.runScript R calls) := by
  induction calls generalizing q with
  | nil => exact .here
  | cons call rest ih => exact (path_step R q call).trans (ih (q.step R call).1)

end SerialQueue
end SerialDispatch
