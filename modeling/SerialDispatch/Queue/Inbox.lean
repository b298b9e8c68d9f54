/-!
# The inbox of a serial queue

Tasks wait in an inbox in the order in which they were submitted. The caller's side may let go of
it, which also signals the worker to stop, and the worker's side may close it; either way a
submission is refused and has no effect.
-/
namespace SerialDispatch

/-- Why a submission is refused. -/
inductive SubmitError where
  | closed
  | notRunning
  deriving DecidableEq, Repr

namespace SubmitError

def tag : SubmitError → String
  | .closed => "Closed"
  | .notRunning => "NotRunning"

def message : SubmitError → String
  | .closed => "execution queue channel closed"
  | .notRunning => "execution queue not running"

end SubmitError

structure Inbox (τ : Type) where
  waiting : List τ
  /-- Whether the caller has let go, which is the signal to stop. -/
  stopping : Bool
  /-- Whether the worker has closed its side. -/
  closed : Bool
  deriving DecidableEq, Repr

namespace Inbox

variable {τ : Type}

def empty : Inbox τ := ⟨[], false, false⟩

def submit (i : Inbox τ) (task : τ) : Except SubmitError (Inbox τ) :=
  if i.stopping then .error .notRunning
  else if i.closed then .error .closed
  else .ok { i with waiting := i.waiting ++ [task] }

/-- What is taken in goes behind all that waits. -/
theorem submit_eq_ok {i j : Inbox τ} {task : τ} : i.submit task = .ok j ↔
    i.stopping = false ∧ i.closed = false ∧ j = { i with waiting := i.waiting ++ [task] } := by
  unfold submit
  cases i.stopping <;> cases i.closed <;> simp [eq_comm]

theorem submit_eq_error {i : Inbox τ} {task : τ} {e : SubmitError} : i.submit task = .error e ↔
    i.stopping = true ∧ e = .notRunning ∨
      i.stopping = false ∧ i.closed = true ∧ e = .closed := by
  unfold submit
  cases i.stopping <;> cases i.closed <;> simp [eq_comm]

def stop (i : Inbox τ) : Inbox τ := { i with stopping := true }

/-- Nothing waits any more and nothing is taken in. -/
def close (i : Inbox τ) : Inbox τ := { i with waiting := [], closed := true }

end Inbox
end SerialDispatch
