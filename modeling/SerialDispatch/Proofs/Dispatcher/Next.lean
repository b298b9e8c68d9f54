import SerialDispatch.Dispatcher.Worker

/-!
# What can be done next in a dispatcher session

What worker and delivery do next is one of a few things, each with what calls for it:
`Session.advance_cases`, `Session.next_cases`. Whatever holds of every step is proved from them.
-/
namespace SerialDispatch
namespace Session

variable {S : Setup} {limit : Option Nat} {s t : Session}

/-- One thing that the worker does, with what calls for it. -/
inductive Advance (S : Setup) (s : Session) : Session → Prop
  | windDown (idle : s.stage = .idle) (stopping : s.inbox.stopping = true) :
      Advance S s s.windDown
  | take {task : Task} {rest : List Task} (idle : s.stage = .idle)
      (going : s.inbox.stopping = false) (first : s.inbox.waiting = task :: rest) :
      Advance S s (s.take S task rest)
  | check {task : Task} {wake : Nat} (waits : s.stage = .window task wake) :
      Advance S s ({ s with turn := .resumed }.check task)
  | construct {task : Task} (ready : s.stage = .ready task) : Advance S s (s.construct S task)
  | endBody {task : Task} {n wake : Nat} (runs : s.stage = .running task n [] wake) :
      Advance S s (s.leaveBody task (some ⟨task.request.kind, .ok, []⟩))
  | bodyStep {task : Task} {n wake : Nat} {step : BodyStep} {rest : List BodyStep}
      (runs : s.stage = .running task n (step :: rest) wake) :
      Advance S s (s.bodyStep S task n rest step)
  | leave {task : Task} {result : Option Result} (leaves : s.stage = .leaving task result) :
      Advance S s (s.leave task result)
  | finishShutdown (halted : s.stage.isOver = true) (closing : s.owner = .closing)
      (complete : s.isComplete = true) : Advance S s s.finishShutdown

/-- When a window is over, the token is looked at. -/
theorem advance_window {task : Task} {wake : Nat} (hs : s.stage = .window task wake) :
    s.advance? S = some ({ s with turn := .resumed }.check task) := by
  simp only [advance?, hs]

/-- A worker that is over can only end a shutdown in the background. -/
theorem advance_of_over (halted : s.stage.isOver = true) : s.advance? S =
    if s.owner = .closing && s.isComplete then some s.finishShutdown else none := by
  unfold advance?
  cases hs : s.stage with
  | ended => rfl
  | dead => rfl
  | _ => rw [hs] at halted; cases halted

theorem advance_cases (h : s.advance? S = some t) : Advance S s t := by
  by_cases halted : s.stage.isOver = true
  · rw [advance_of_over halted] at h
    split at h
    · rename_i closing
      rw [Bool.and_eq_true, decide_eq_true_eq] at closing
      cases h
      exact .finishShutdown halted closing.1 closing.2
    · cases h
  · unfold advance? at h
    cases hs : s.stage with
    | idle =>
      rw [hs] at h
      cases stopping : s.inbox.stopping with
      | true =>
        rw [stopping] at h
        cases h
        exact .windDown hs stopping
      | false =>
        rw [stopping] at h
        cases first : s.inbox.waiting with
        | nil => rw [first] at h; cases h
        | cons task rest =>
          rw [first] at h
          cases h
          exact .take hs stopping first
    | window task wake =>
      cases (advance_window hs).symm.trans h
      exact .check hs
    | ready task => rw [hs] at h; cases h; exact .construct hs
    | running task n rest wake =>
      rw [hs] at h
      cases rest with
      | nil => cases h; exact .endBody hs
      | cons step rest => cases h; exact .bodyStep hs
    | leaving task result => rw [hs] at h; cases h; exact .leave hs
    | ended => rw [hs] at halted; cases halted rfl
    | dead => rw [hs] at halted; cases halted rfl

/-- A worker that is not over has nothing to do only when it waits for dispatches. -/
theorem idle_of_advance_none (going : s.stage.isOver = false) (h : s.advance? S = none) :
    s.stage = .idle ∧ s.inbox.stopping = false ∧ s.inbox.waiting = [] := by
  unfold advance? at h
  cases hs : s.stage with
  | idle =>
    rw [hs] at h
    cases stopping : s.inbox.stopping with
    | true => rw [stopping] at h; cases h
    | false =>
      cases first : s.inbox.waiting with
      | nil => exact ⟨rfl, rfl, rfl⟩
      | cons task rest => rw [stopping, first] at h; cases h
  | running task n rest wake => rw [hs] at h; cases rest <;> cases h
  | ended => rw [hs] at going; cases going
  | dead => rw [hs] at going; cases going
  | _ => rw [hs] at h; cases h

/-- What is done next: by delivery, by the clock, or by the worker. -/
inductive Next (S : Setup) (limit : Option Nat) (s : Session) : Session → Prop
  | delivered (gives : s.givesWay = true) (waiting : s.mailbox ≠ []) :
      Next S limit s (s.deliverRound S)
  | woke (early : s.clock < s.stage.wake) (soon : Timer.isBefore s.stage.wake limit = true) :
      Next S limit s { s with clock := s.stage.wake }
  | worked {t : Session} (woken : s.stage.wake ≤ s.clock) (works : s.advance? S = some t) :
      Next S limit s t

theorem next_cases (h : s.next? S limit = some t) : Next S limit s t := by
  unfold next? at h
  split at h
  · rename_i gives
    rw [Bool.and_eq_true, Bool.not_eq_true', List.isEmpty_eq_false_iff] at gives
    cases h
    exact .delivered gives.1 gives.2
  · split at h
    · rename_i early
      split at h
      · rename_i soon
        cases h
        exact .woke early soon
      · cases h
    · rename_i woken
      exact .worked (Nat.le_of_not_lt woken) h

/-- Nothing is done next only when nothing is to be delivered, and the worker waits beyond the limit
or has nothing to do. -/
theorem next_none_cases (h : s.next? S limit = none) : (s.givesWay = true → s.mailbox = []) ∧
    (s.clock < s.stage.wake ∧ Timer.isBefore s.stage.wake limit = false ∨
      s.stage.wake ≤ s.clock ∧ s.advance? S = none) := by
  unfold next? at h
  split at h
  · cases h
  · rename_i settled
    refine ⟨fun gives => ?_, ?_⟩
    · simpa [gives] using settled
    · split at h
      · rename_i early
        split at h
        · cases h
        · rename_i late
          exact .inl ⟨early, Bool.not_eq_true _ ▸ late⟩
      · rename_i woken
        exact .inr ⟨Nat.le_of_not_lt woken, h⟩

end Session
end SerialDispatch
