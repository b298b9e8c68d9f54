import SerialDispatch.Proofs.Dispatcher.Outline

/-!
# When delivery is cut off

Delivery and worker take turns. A turn of delivery may be used up while messages still wait and the
worker has something to do: then delivery is cut off. Two sessions that are alike, and whose turns
agree but for how much can still be delivered, give way both or neither, unless one of them is cut
off; main statement: `Session.cutOff_of_differ`.
-/
namespace SerialDispatch

namespace Turn

def isDelivery : Turn → Bool
  | .delivery _ => true
  | .worker _ => false

/-- The turns are the same, or both are turns of delivery. -/
def Agrees (a b : Turn) : Prop := a = b ∨ a.isDelivery = true ∧ b.isDelivery = true

theorem isDelivery_delivered (turn : Turn) : turn.delivered.isDelivery = true := by
  cases turn with
  | worker credit => rfl
  | delivery credit => cases credit <;> rfl

theorem Agrees.symm {a b : Turn} (agrees : a.Agrees b) : b.Agrees a :=
  agrees.imp Eq.symm And.symm

theorem Agrees.worked {a b : Turn} (agrees : a.Agrees b) : a.worked = b.worked := by
  rcases agrees with rfl | ⟨first, second⟩
  · rfl
  · cases a with
    | worker credit => cases first
    | delivery credit =>
      cases b with
      | worker credit => cases second
      | delivery credit => rfl

end Turn

namespace Session

variable {S : Setup} {s t : Session}

theorem turn_send (s : Session) (m : Message Command) : (s.send m).turn = s.turn := by
  unfold send
  split <;> rfl

theorem turn_perform (S : Setup) (s : Session) (c : Command) : (s.perform S c).1.turn = s.turn := by
  refine lift_parts (R := fun u v => v.turn = u.turn) (Dealings.perform S s c) (fun _ => rfl)
    (fun first second => second.trans first) fun {u v} dealing => ?_
  cases dealing with
  | own same => rw [same]
  | sent m => exact turn_send u m
  | _ => rfl

theorem turn_deliverEvents (S : Setup) (s : Session) (events : List Event) :
    (s.deliverEvents S events).turn = s.turn := by
  refine lift_parts (R := fun u v => v.turn = u.turn) (carrying_deliverEvents S s events)
    (fun _ => rfl) (fun first second => second.trans first) fun {u v} carries => ?_
  cases carries with
  | reacted callback c => exact turn_perform S u c
  | _ => rfl

theorem turn_deliverRound (S : Setup) (s : Session) :
    (s.deliverRound S).turn = s.turn.delivered := turn_deliverEvents S _ _

theorem turn_check (s : Session) (task : Task) : (s.check task).turn = s.turn := by
  unfold check
  split
  · exact turn_send _ _
  · rfl

theorem turn_bodyStep (S : Setup) (s : Session) (task : Task) (n : Nat) (rest : List BodyStep)
    (step : BodyStep) : (s.bodyStep S task n rest step).turn = s.turn := by
  cases step with
  | progress update => exact turn_send s _
  | prevent => exact turn_send s _
  | stopIfCancelled steps =>
    simp only [bodyStep]
    split <;> rfl
  | command command => exact turn_perform S s command
  | shutdown =>
    simp only [bodyStep, beginShutdown]
    split <;> rfl
  | _ => rfl

theorem turn_windDown (s : Session) : s.windDown.turn = s.turn :=
  List.foldlRecOn _ discard (motive := fun u => u.turn = s.turn) rfl
    fun _ same _ _ => Eq.trans (turn_send _ _) same

theorem turn_finishShutdown (s : Session) : s.finishShutdown.turn = s.turn :=
  logShutdown_induct (motive := fun u => u.turn = s.turn) rfl (fun _ same => same) fun _ same => same

/-- Whose turn it is after the next move of the worker. -/
def nextTurn (s : Session) : Turn :=
  match s.stage with
  | .idle => if s.inbox.stopping then s.turn else s.turn.worked
  | .window .. | .leaving .. => .resumed
  | _ => s.turn

theorem turn_advance (h : s.advance? S = some t) : t.turn = s.nextTurn := by
  unfold nextTurn
  cases advance_cases h with
  | windDown idle stopping =>
    rw [idle, if_pos stopping]
    exact turn_windDown s
  | take idle going =>
    rw [idle, if_neg (ne_true_of_eq_false going)]
    unfold take
    dsimp only
    split
    · rfl
    · exact turn_check _ _
  | check waits =>
    rw [waits]
    exact turn_check _ _
  | construct ready =>
    rw [ready]
    unfold construct
    dsimp only
    split <;> rfl
  | endBody runs => rw [runs]; rfl
  | bodyStep runs =>
    rw [runs]
    exact turn_bodyStep S s _ _ _ _
  | leave leaves => rw [leaves]; rfl
  | finishShutdown halted =>
    rw [turn_finishShutdown]
    cases hs : s.stage with
    | idle | window | leaving => rw [hs] at halted; cases halted
    | _ => rfl

/-- The worker gives no turn to delivery. -/
theorem credit_of_nextTurn {credit : Nat} (turn : s.nextTurn = .delivery credit) :
    s.turn = .delivery credit := by
  unfold nextTurn at turn
  split at turn
  · split at turn
    · exact turn
    · cases now : s.turn with
      | worker left => rw [now] at turn; cases left <;> cases turn
      | delivery left => rw [now] at turn; cases turn
  · cases turn
  · cases turn
  · exact turn

/-- The worker's moves leave turns that agree so. -/
theorem agrees_nextTurn (like : Like .effects s t) (turns : s.turn.Agrees t.turn) :
    s.nextTurn.Agrees t.nextTurn := by
  unfold nextTurn
  rw [← like.stage, ← like.inbox]
  split
  · split
    · exact turns
    · exact .inl turns.worked
  · exact .inl rfl
  · exact .inl rfl
  · exact turns

/-- The turn of delivery is used up, but messages wait and the worker has something to do. -/
structure CutOff (s : Session) : Prop where
  idle : s.stage = .idle
  used : s.turn = .delivery 0
  waiting : s.mailbox ≠ []
  passed : s.givesWay = false

/-- Where the worker is not between two dispatches, it gives way or not regardless of the turn. -/
theorem givesWay_congr (stage : s.stage = t.stage) (clock : s.clock = t.clock)
    (busy : s.stage ≠ .idle) : s.givesWay = t.givesWay := by
  unfold givesWay
  rw [← stage, ← clock]
  cases hs : s.stage with
  | idle => exact absurd hs busy
  | _ => rfl

/-- A turn of delivery after which the worker is not to give way has been used up. -/
theorem cutOff_of_delivery (idle : s.stage = .idle) (turn : s.turn.isDelivery = true)
    (waiting : s.mailbox ≠ []) (passed : s.givesWay = false) : s.CutOff := by
  refine ⟨idle, ?_, waiting, passed⟩
  unfold givesWay at passed
  simp only [idle, Bool.or_eq_false_iff] at passed
  cases ht : s.turn with
  | worker credit => rw [ht] at turn; cases turn
  | delivery credit =>
    have used := passed.2
    rw [ht] at used
    simp only [Turn.isForDelivery, ne_eq, decide_eq_false_iff_not, not_not] at used
    rw [used]

/-- After a batch delivery goes on, unless it is cut off. -/
theorem gives_again (gives : s.givesWay = true) (waiting : (s.deliverRound S).mailbox ≠ []) :
    (s.deliverRound S).givesWay = true ∨ (s.deliverRound S).CutOff := by
  have unmoved := Unmoved.deliverRound (S := S) s
  by_cases idle : s.stage = .idle
  · by_cases again : (s.deliverRound S).givesWay = true
    · exact .inl again
    · rw [Bool.not_eq_true] at again
      refine .inr (cutOff_of_delivery (unmoved.stage.trans idle) ?_ waiting again)
      rw [turn_deliverRound]
      exact Turn.isDelivery_delivered _
  · rw [givesWay_congr unmoved.stage unmoved.clock (by rw [unmoved.stage]; exact idle)]
    exact .inl gives

/-- Of two sessions that are alike, one gives way and the other does not: that one is cut off. -/
theorem cutOff_of_differ (like : Like .effects s t) (turns : s.turn.Agrees t.turn)
    (waiting : s.mailbox ≠ []) (passed : s.givesWay = false) (gives : t.givesWay = true) :
    s.CutOff := by
  by_cases idle : s.stage = .idle
  · rcases turns with same | ⟨first, -⟩
    · have both : s.givesWay = t.givesWay := by
        unfold givesWay
        rw [← like.stage, ← like.inbox, same, idle]
      rw [passed, gives] at both
      cases both
    · exact cutOff_of_delivery idle first waiting passed
  · rw [givesWay_congr like.stage (like.clock (.inl rfl)) idle, gives] at passed
    cases passed

end Session
end SerialDispatch
