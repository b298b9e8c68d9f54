import SerialDispatch.Proofs.Dispatcher.Next

/-!
# The load of a dispatcher session

What a session has still before it is bounded: every step of the worker uses up some of its work
load, and the only way to more work are starts, which are limited. Delivery leaves the work load as
it is and shortens its own backlog. Main statement: `Session.load_next`, the next step leaves less
work, or no more work and less to deliver.
-/
namespace SerialDispatch

/-- A bound on the cost of the body that a request gets. -/
def Setup.bodyBound (S : Setup) : Nat :=
  total (Kind.all.map fun k => ((S.registry.slot k).map Factory.bound).getD 0)

theorem Setup.totalCost_body_le (S : Setup) (request : Request) :
    BodyStep.totalCost (S.body request) ≤ S.bodyBound := by
  have hk := le_total_of_mem (List.mem_map_of_mem (Kind.mem_all request.kind)
    (f := fun k => ((S.registry.slot k).map Factory.bound).getD 0))
  refine Nat.le_trans ?_ hk
  unfold Setup.body
  cases S.registry.slot request.kind with
  | none => exact Nat.le_refl _
  | some factory => exact factory.cost_le request

namespace Session

/-- How many starts are left. -/
def budget (S : Setup) (s : Session) : Nat := S.startLimit - s.starts

/-- Messages that wait, and messages that the starts that are left may send. -/
def backlog (S : Setup) (s : Session) : Nat := s.mailbox.length + 2 * s.budget S

section Backlog

variable (S : Setup)

@[simp] theorem starts_send (s : Session) (m : Message Command) : (s.send m).starts = s.starts := by
  unfold send
  split <;> rfl

theorem mailbox_send_le (s : Session) (m : Message Command) :
    (s.send m).mailbox.length ≤ s.mailbox.length + 1 := by
  unfold send
  split
  · exact Nat.le_of_eq List.length_append
  · exact Nat.le_succ _

theorem starts_submit (s : Session) (n : Nat) (t : Task) : (s.submit n t).starts = s.starts := by
  unfold submit
  cases s.inbox.submit t with
  | ok inbox => rfl
  | error e => exact starts_send _ _

theorem mailbox_submit_le (s : Session) (n : Nat) (t : Task) :
    (s.submit n t).mailbox.length ≤ s.mailbox.length + 1 := by
  unfold submit
  cases s.inbox.submit t with
  | ok inbox => exact Nat.le_succ _
  | error e => exact mailbox_send_le _ _

theorem starts_startRequest (s : Session) (request : Request) (input : CryptoInput)
    (surface : Surface) (callback : Callback Command) :
    (s.startRequest S request input surface callback).1.starts = s.starts := by
  unfold startRequest
  split
  · rfl
  · split
    · rfl
    · rw [starts_submit, starts_send]
      rfl

theorem mailbox_startRequest_le (s : Session) (request : Request) (input : CryptoInput)
    (surface : Surface) (callback : Callback Command) :
    (s.startRequest S request input surface callback).1.mailbox.length ≤ s.mailbox.length + 2 := by
  unfold startRequest
  split
  · exact Nat.le_add_right _ _
  · split
    · exact Nat.le_add_right _ _
    · refine Nat.le_trans (mailbox_submit_le _ _ _) ?_
      exact Nat.succ_le_succ (mailbox_send_le s.allot _)

theorem backlog_cancel (s : Session) (handle : Nat) :
    (s.cancel handle).1.backlog S = s.backlog S := by
  unfold cancel
  split
  · rfl
  · split <;> rfl

theorem backlog_perform_le (s : Session) (c : Command) :
    (s.perform S c).1.backlog S ≤ s.backlog S := by
  cases c with
  | start request input surface panicsOn reactions =>
    simp only [perform]
    split
    · exact Nat.le_refl _
    · rename_i hlimit
      split
      · have hs := starts_startRequest S { s with starts := s.starts + 1 } request input surface
          ⟨s.starts, panicsOn, reactions⟩
        have hm := mailbox_startRequest_le S { s with starts := s.starts + 1 } request input surface
          ⟨s.starts, panicsOn, reactions⟩
        simp only [backlog, budget, hs] at hm ⊢
        omega
      · simp only [backlog, budget]
        omega
  | cancel handle => exact Nat.le_of_eq (backlog_cancel S s handle)
  | drop =>
    simp only [perform]
    split <;> exact Nat.le_refl _
  | unreadable word fault => exact Nat.le_refl _

theorem backlog_react_le (callback : Nat) (s : Session) (c : Command) :
    (s.react S callback c).backlog S ≤ s.backlog S :=
  backlog_perform_le S s c

theorem backlog_foldl_react_le (callback : Nat) (s : Session) (cs : List Command) :
    (cs.foldl (react S callback) s).backlog S ≤ s.backlog S := by
  induction cs generalizing s with
  | nil => exact Nat.le_refl _
  | cons c rest ih => exact Nat.le_trans (ih _) (backlog_react_le S callback s c)

theorem backlog_deliverEvent_le (s : Session) (e : Event) :
    (s.deliverEvent S e).backlog S ≤ s.backlog S := by
  unfold deliverEvent
  split
  · exact Nat.le_refl _
  · simp only
    split
    · exact Nat.add_le_add_right (Nat.zero_le _) _
    · exact backlog_foldl_react_le S _ _ _

theorem backlog_deliverEvents_le (s : Session) (events : List Event) :
    (s.deliverEvents S events).backlog S ≤ s.backlog S := by
  induction events generalizing s with
  | nil => exact Nat.le_refl _
  | cons e rest ih =>
    unfold deliverEvents
    simp only
    split
    · exact Nat.le_trans (ih _) (backlog_deliverEvent_le S s e)
    · exact backlog_deliverEvent_le S s e

theorem backlog_deliverRound_lt {s : Session} (h : s.mailbox ≠ []) :
    (s.deliverRound S).backlog S < s.backlog S := by
  refine Nat.lt_of_le_of_lt (backlog_deliverEvents_le S _ _) ?_
  have := Message.nextBatch_rest_lt S.config.coalescing h
  simp only [backlog, budget]
  omega

end Backlog

/-- Tasks that wait, and tasks that the starts that are left may bring. -/
def reserve (S : Setup) (s : Session) : Nat := s.budget S + s.inbox.waiting.length

/-- Nothing has moved the worker, and no more tasks are to come than before. -/
structure Unmoved (S : Setup) (s t : Session) : Prop where
  stage : t.stage = s.stage
  clock : t.clock = s.clock
  closing : t.owner = .closing ↔ s.owner = .closing
  reserve : t.reserve S ≤ s.reserve S

namespace Unmoved

variable {S : Setup}

theorem refl (s : Session) : Unmoved S s s := ⟨rfl, rfl, Iff.rfl, Nat.le_refl _⟩

theorem trans {s t u : Session} (h : Unmoved S s t) (k : Unmoved S t u) : Unmoved S s u :=
  ⟨k.stage.trans h.stage, k.clock.trans h.clock, k.closing.trans h.closing,
    Nat.le_trans k.reserve h.reserve⟩

theorem record (s : Session) (h : Happening) : Unmoved S s (s.record h) :=
  ⟨rfl, rfl, Iff.rfl, Nat.le_refl _⟩

theorem reach (s : Session) (task : Task) (milestone : Milestone) :
    Unmoved S s (s.reach task milestone) := record s _

theorem send (s : Session) (m : Message Command) : Unmoved S s (s.send m) := by
  unfold Session.send
  split <;> exact ⟨rfl, rfl, Iff.rfl, Nat.le_refl _⟩

theorem tokens (s : Session) (pool : TokenPool) : Unmoved S s { s with tokens := pool } :=
  ⟨rfl, rfl, Iff.rfl, Nat.le_refl _⟩

theorem delivery (s : Session) (mailbox : List (Message Command)) (callbacks : Callbacks Command)
    (turn : Turn) :
    Unmoved S s { s with mailbox := mailbox, callbacks := callbacks, turn := turn } :=
  ⟨rfl, rfl, Iff.rfl, Nat.le_refl _⟩

theorem turn (s : Session) (turn : Turn) : Unmoved S s { s with turn := turn } :=
  ⟨rfl, rfl, Iff.rfl, Nat.le_refl _⟩

theorem refuse (s : Session) (id : DispatchId) (token : Token) : Unmoved S s (s.refuse id token) :=
  (tokens s _).trans (send _ _)

theorem cancel (s : Session) (handle : Nat) : Unmoved S s (s.cancel handle).1 := by
  unfold Session.cancel
  split
  · exact refl s
  · split
    · exact record s _
    · exact ((tokens s _).trans (record _ _)).trans (record _ _)

/-- A start takes one of the starts that are left and brings one task at most. -/
theorem startRequest {s : Session} (h : s.starts < S.startLimit) (request : Request)
    (input : CryptoInput) (surface : Surface) (callback : Callback Command) :
    Unmoved S s
      ({ s with starts := s.starts + 1 }.startRequest S request input surface callback).1 := by
  have used : Unmoved S s { s with starts := s.starts + 1 } := by
    refine ⟨rfl, rfl, Iff.rfl, ?_⟩
    simp only [Session.reserve, budget]
    omega
  unfold Session.startRequest
  split
  · exact used
  · split
    · exact ⟨rfl, rfl, Iff.rfl, used.reserve⟩
    · simp only
      generalize hm : Message.attach _ callback = m
      generalize ht : Task.mk _ _ _ _ _ = task
      unfold Session.submit
      have sent : ∀ u : Session, Unmoved S u (u.send m) := fun u => send u m
      generalize hu : Session.allot { s with starts := s.starts + 1 } = u
      have hstarts : (u.send m).starts = s.starts + 1 := by
        rw [starts_send, ← hu]
        rfl
      have alloted : Unmoved S s (u.send m) := by
        refine used.trans (Unmoved.trans ?_ (sent u))
        rw [← hu]
        exact ⟨rfl, rfl, Iff.rfl, Nat.le_refl _⟩
      have hwaiting : (u.send m).inbox.waiting = s.inbox.waiting := by
        unfold Session.send
        rw [← hu]
        split <;> rfl
      cases hi : (u.send m).inbox.submit task with
      | ok inbox =>
        refine ⟨alloted.stage, alloted.clock, alloted.closing, ?_⟩
        have hl : inbox.waiting.length = s.inbox.waiting.length + 1 := by
          obtain ⟨-, -, rfl⟩ := Inbox.submit_eq_ok.1 hi
          simp [hwaiting]
        simp only [Session.reserve, budget, log, Session.reach, Session.record, hl, hstarts]
        omega
      | error e =>
        have r := alloted.trans ((record (S := S) (u.send m) _).trans
          (refuse (S := S) ((u.send m).log (.dispatchRefused task.id task.request.kind e))
            task.id task.token))
        exact ⟨r.stage, r.clock, r.closing, r.reserve⟩

theorem perform (s : Session) (c : Command) : Unmoved S s (s.perform S c).1 := by
  cases c with
  | start request input surface panicsOn reactions =>
    simp only [Session.perform]
    split
    · exact refl s
    · rename_i h
      split
      · exact startRequest (Nat.lt_of_not_le h) request input surface _
      · refine ⟨rfl, rfl, Iff.rfl, ?_⟩
        simp only [Session.reserve, budget]
        omega
  | cancel handle => exact cancel s handle
  | drop =>
    simp only [Session.perform]
    split
    · rename_i h
      exact ⟨rfl, rfl, by simp [h, signalStop, Session.record], Nat.le_refl _⟩
    · exact refl s
  | unreadable word fault => exact refl s

theorem react (callback : Nat) (s : Session) (c : Command) :
    Unmoved S s (s.react S callback c) :=
  (perform s c).trans (record _ _)

theorem foldl_react (callback : Nat) (s : Session) (cs : List Command) :
    Unmoved S s (cs.foldl (Session.react S callback) s) := by
  induction cs generalizing s with
  | nil => exact refl s
  | cons c rest ih => exact (react callback s c).trans (ih _)

theorem deliverEvent (s : Session) (e : Event) : Unmoved S s (s.deliverEvent S e) := by
  unfold Session.deliverEvent
  split
  · exact record s _
  · simp only
    split
    · exact ⟨rfl, rfl, Iff.rfl, Nat.le_refl _⟩
    · exact ((delivery s s.mailbox _ s.turn).trans (record _ _)).trans (foldl_react _ _ _)

theorem deliverEvents (s : Session) (events : List Event) :
    Unmoved S s (s.deliverEvents S events) := by
  induction events generalizing s with
  | nil => exact refl s
  | cons e rest ih =>
    unfold Session.deliverEvents
    simp only
    split
    · exact (deliverEvent s e).trans (ih _)
    · exact deliverEvent s e

theorem deliverRound (s : Session) : Unmoved S s (s.deliverRound S) :=
  (delivery s _ _ _).trans (deliverEvents _ _)

end Unmoved

/-- How many steps the worker may need until it is idle. -/
def stageLoad (S : Setup) (clock : Nat) : Stage → Nat
  | .idle => 1
  | .window _ wake => S.bodyBound + 5 + (if clock < wake then 1 else 0)
  | .ready _ => S.bodyBound + 4
  | .running _ _ rest wake => BodyStep.totalCost rest + 3 + (if clock < wake then 1 else 0)
  | .leaving .. => 2
  | .ended => 0
  | .dead => 0

/-- A shutdown in the background has its end still before it. -/
def closingLoad (s : Session) : Nat := if s.owner = .closing then 1 else 0

/-- How many steps the worker may still need. -/
def workLoad (S : Setup) (s : Session) : Nat :=
  (S.bodyBound + 7) * s.reserve S + stageLoad S s.clock s.stage + s.closingLoad

section Load

variable {S : Setup}

theorem Unmoved.closingLoad {s t : Session} (u : Unmoved S s t) :
    t.closingLoad = s.closingLoad := by
  simp only [Session.closingLoad, u.closing]

/-- Whatever else is done, the stage that the worker comes to decides. -/
theorem workLoad_stage_le {s t : Session} (u : Unmoved S s t) (stage : Stage) :
    { t with stage := stage }.workLoad S ≤
      (S.bodyBound + 7) * s.reserve S + stageLoad S s.clock stage + s.closingLoad := by
  have hr := Nat.mul_le_mul_left (S.bodyBound + 7) u.reserve
  have hc := u.closingLoad
  rw [← u.clock, ← hc]
  exact Nat.add_le_add_right (Nat.add_le_add_right hr _) _

theorem workLoad_lt_of_stage {s t : Session} (u : Unmoved S s t) {stage : Stage}
    (h : stageLoad S s.clock stage < stageLoad S s.clock s.stage) :
    { t with stage := stage }.workLoad S < s.workLoad S := by
  have := workLoad_stage_le u stage
  simp only [workLoad] at this ⊢
  omega

theorem workLoad_deliverRound_le (s : Session) :
    (s.deliverRound S).workLoad S ≤ s.workLoad S := by
  have u := Unmoved.deliverRound (S := S) s
  have hw := workLoad_stage_le u s.stage
  rw [← u.stage] at hw
  have hs : s.workLoad S = (S.bodyBound + 7) * s.reserve S +
      stageLoad S s.clock (s.deliverRound S).stage + s.closingLoad := by
    rw [u.stage]
    rfl
  exact hs ▸ hw

theorem workLoad_check_le (s : Session) (task : Task) :
    (s.check task).workLoad S ≤
      (S.bodyBound + 7) * s.reserve S + (S.bodyBound + 4) + s.closingLoad := by
  unfold check
  split
  · refine Nat.le_trans (workLoad_stage_le
      (((Unmoved.reach _ _ _).trans (Unmoved.record _ _)).trans (Unmoved.send _ _)) .idle) ?_
    simp only [stageLoad]
    omega
  · exact workLoad_stage_le (Unmoved.reach s _ _) _

/-- Taking a task makes room for all the steps of it. -/
theorem workLoad_take_lt {s : Session} {task : Task} {rest : List Task} (hs : s.stage = .idle)
    (hw : s.inbox.waiting = task :: rest) : (s.take S task rest).workLoad S < s.workLoad S := by
  generalize hu : { s with
    inbox := { s.inbox with waiting := rest }, turn := s.turn.worked }.reach task .taken = u
  have hr : (S.bodyBound + 7) * s.reserve S =
      (S.bodyBound + 7) * u.reserve S + (S.bodyBound + 7) := by
    rw [← Nat.mul_succ, ← hu]
    simp only [reserve, budget, Session.reach, record, hw, List.length_cons, Nat.succ_eq_add_one,
      Nat.add_assoc]
  have hl : s.workLoad S = (S.bodyBound + 7) * s.reserve S + 1 + u.closingLoad := by
    rw [workLoad, hs, ← hu]
    rfl
  unfold take
  simp only [hu]
  split
  · generalize Timer.due u.clock S.config.quiescence = wake
    refine Nat.lt_of_le_of_lt (workLoad_stage_le (Unmoved.record u _) _) ?_
    simp only [stageLoad]
    split <;> omega
  · refine Nat.lt_of_le_of_lt (workLoad_check_le u task) ?_
    omega

/-- What ends a body, or takes the place of one. -/
theorem workLoad_leaveBody_lt {s t : Session} {task : Task} (u : Unmoved S s t)
    (h : 2 < stageLoad S s.clock s.stage) (result : Option Result) :
    (t.leaveBody task result).workLoad S < s.workLoad S := by
  have := (u.trans (Unmoved.reach t task (.returned result)))
  exact workLoad_lt_of_stage this h

theorem workLoad_construct_lt {s : Session} {task : Task} (hs : s.stage = .ready task) :
    (s.construct S task).workLoad S < s.workLoad S := by
  have hb := S.totalCost_body_le task.request
  have made : Unmoved S s { s with constructed := s.constructed + 1 } :=
    ⟨rfl, rfl, Iff.rfl, Nat.le_refl _⟩
  have called := (made.trans (Unmoved.reach _ task (.constructed s.constructed))).trans
    (Unmoved.record _ (.note (.created s.constructed s.clock)))
  unfold construct
  simp only
  split
  · refine workLoad_leaveBody_lt called ?_ _
    simp only [stageLoad, hs]
    omega
  · refine workLoad_lt_of_stage (called.trans (Unmoved.record _ _)) ?_
    simp only [stageLoad, hs, Nat.lt_irrefl, if_false]
    omega

/-- A step of a body that only goes on to the next one. -/
theorem workLoad_next_lt {s t : Session} {task : Task} {n wake : Nat} {step : BodyStep}
    {rest : List BodyStep} (u : Unmoved S s t)
    (hs : s.stage = .running task n (step :: rest) wake) :
    { t with stage := .running task n rest t.clock }.workLoad S < s.workLoad S := by
  refine workLoad_lt_of_stage u ?_
  have := step.cost_pos
  simp only [stageLoad, hs, u.clock, Nat.lt_irrefl, if_false, BodyStep.totalCost, List.map_cons,
    total_cons]
  omega

/-- A step of a body that ends it. -/
theorem workLoad_leaving_lt {s t : Session} {task : Task} {n wake : Nat} {steps : List BodyStep}
    (u : Unmoved S s t) (hs : s.stage = .running task n steps wake) (result : Option Result) :
    (t.leaveBody task result).workLoad S < s.workLoad S := by
  refine workLoad_leaveBody_lt u ?_ result
  simp only [stageLoad, hs]
  omega

theorem workLoad_bodyStep_lt {s : Session} {task : Task} {n wake : Nat} {step : BodyStep}
    {rest : List BodyStep} (hs : s.stage = .running task n (step :: rest) wake) :
    (s.bodyStep S task n rest step).workLoad S < s.workLoad S := by
  have noted : ∀ {t : Session} (word : String) (reply : Reply), Unmoved S s t →
      Unmoved S s (t.note (.stepped n word reply)) := fun _ _ u => u.trans (Unmoved.record _ _)
  cases step with
  | progress update => exact workLoad_next_lt (Unmoved.send _ _) hs
  | prevent => exact workLoad_next_lt (Unmoved.send _ _) hs
  | flush => exact workLoad_next_lt (Unmoved.refl s) hs
  | work duration =>
    refine workLoad_lt_of_stage (Unmoved.refl s) ?_
    simp only [stageLoad, hs, BodyStep.totalCost, List.map_cons, total_cons, BodyStep.cost]
    split <;> omega
  | poll => exact workLoad_next_lt (noted _ _ (Unmoved.reach s _ _)) hs
  | stopIfCancelled steps =>
    simp only [bodyStep]
    split
    · exact workLoad_leaving_lt (Unmoved.reach s _ _) hs _
    · exact workLoad_next_lt (Unmoved.reach s _ _) hs
  | leak =>
    have kept : Unmoved S s { s with sinks := s.sinks ++ [some task.id] } :=
      ⟨rfl, rfl, Iff.rfl, Nat.le_refl _⟩
    exact workLoad_next_lt (noted _ _ kept) hs
  | panic => exact workLoad_leaving_lt (Unmoved.refl s) hs _
  | finish kind status log => exact workLoad_leaving_lt (Unmoved.refl s) hs _
  | store step =>
    have asked : Unmoved S s (s.ask step).1 := ⟨rfl, rfl, Iff.rfl, Nat.le_refl _⟩
    exact workLoad_next_lt (noted _ _ asked) hs
  | command command => exact workLoad_next_lt (noted _ _ (Unmoved.perform s command)) hs
  | shutdown =>
    simp only [bodyStep, beginShutdown]
    split <;> rename_i howner <;>
    · simp [workLoad, hs, stageLoad, closingLoad, howner, note, signalStop, record,
        BodyStep.totalCost, BodyStep.cost, reserve, budget, Inbox.stop]
      omega
  | unreadable word fault => exact workLoad_next_lt (noted _ _ (Unmoved.refl s)) hs

theorem workLoad_leave_lt {s : Session} {task : Task} {result : Option Result}
    (hs : s.stage = .leaving task result) : (s.leave task result).workLoad S < s.workLoad S := by
  unfold leave
  simp only
  split
  · refine workLoad_lt_of_stage ((((Unmoved.record _ _).trans (Unmoved.record _ _)).trans
      (Unmoved.send _ _)).trans (Unmoved.turn _ .resumed)) ?_
    simp [stageLoad, hs]
  · refine workLoad_lt_of_stage (((Unmoved.record _ _).trans (Unmoved.send _ _)).trans
      (Unmoved.turn _ .resumed)) ?_
    simp [stageLoad, hs]

theorem Unmoved.discard (s : Session) (tasks : List Task) :
    Unmoved S s (tasks.foldl Session.discard s) := by
  induction tasks generalizing s with
  | nil => exact refl s
  | cons task rest ih =>
    have first := (Unmoved.tokens (S := S) s (s.tokens.cancel task.token)).trans
      (Unmoved.reach _ task .discarded)
    exact ((first.trans (Unmoved.record _ _)).trans (Unmoved.send _ _)).trans (ih _)

theorem workLoad_windDown_lt {s : Session} (hs : s.stage = .idle) :
    s.windDown.workLoad S < s.workLoad S := by
  have u := Unmoved.discard (S := S) s s.inbox.waiting
  unfold windDown
  generalize s.inbox.waiting.foldl discard s = t at u
  have closed : Unmoved S t { t with inbox := t.inbox.close } := by
    refine ⟨rfl, rfl, Iff.rfl, ?_⟩
    simp [reserve, budget, Inbox.close]
  refine workLoad_lt_of_stage (u.trans closed) ?_
  simp [stageLoad, hs]

theorem workLoad_finishShutdown_lt {s : Session} (ho : s.owner = .closing) :
    s.finishShutdown.workLoad S < s.workLoad S := by
  have hl : ∀ t : Session, t.logShutdown.workLoad S = t.workLoad S := by
    intro t
    unfold logShutdown
    simp only
    split <;> split <;> rfl
  have : s.finishShutdown.workLoad S = { s with owner := .gone }.workLoad S := hl _
  rw [this]
  simp [workLoad, closingLoad, ho, reserve, budget]

theorem workLoad_advance {s t : Session} (h : s.advance? S = some t) :
    t.workLoad S < s.workLoad S := by
  cases advance_cases h with
  | windDown idle => exact workLoad_windDown_lt idle
  | take idle _ first => exact workLoad_take_lt idle first
  | check waits =>
    refine Nat.lt_of_le_of_lt (workLoad_check_le _ _) ?_
    simp only [workLoad, waits, stageLoad, reserve, budget, closingLoad]
    omega
  | construct ready => exact workLoad_construct_lt ready
  | endBody runs => exact workLoad_leaving_lt (Unmoved.refl s) runs _
  | bodyStep runs => exact workLoad_bodyStep_lt runs
  | leave leaves => exact workLoad_leave_lt leaves
  | finishShutdown _ closing => exact workLoad_finishShutdown_lt closing

theorem workLoad_wake {s : Session} (h : s.clock < s.stage.wake) :
    { s with clock := s.stage.wake }.workLoad S < s.workLoad S := by
  cases hs : s.stage with
  | window task wake =>
    simp only [hs, Stage.wake] at h
    simp [workLoad, stageLoad, hs, Stage.wake, h, reserve, budget, closingLoad]
  | running task n rest wake =>
    simp only [hs, Stage.wake] at h
    simp [workLoad, stageLoad, hs, Stage.wake, h, reserve, budget, closingLoad]
  | _ => simp [hs, Stage.wake] at h

theorem load_next {limit : Option Nat} {s t : Session} (h : s.next? S limit = some t) :
    t.workLoad S < s.workLoad S ∨ t.workLoad S = s.workLoad S ∧ t.backlog S < s.backlog S := by
  cases next_cases h with
  | delivered _ waiting =>
    have hb := backlog_deliverRound_lt S waiting
    have hw := workLoad_deliverRound_le (S := S) s
    omega
  | woke early => exact .inl (workLoad_wake early)
  | worked _ works => exact .inl (workLoad_advance works)

end Load

end Session
end SerialDispatch
