import SerialDispatch.Proofs.Dispatcher.Course
import SerialDispatch.Proofs.Dispatcher.Steps

/-!
# Delivery in batches

A session is a relay that passes on batches: as long as delivery goes on, the batches taken from the
mailbox and what waits in it are together all that was sent, and the callbacks were told what a
relay passes on of these batches, whether or not they are coalesced; main statement:
`Session.passing_runScript`.
-/
namespace SerialDispatch.Session

/-- The batches were taken from the mailbox, in order, and passed on as a relay does. -/
structure Passes (coalescing : Bool) (s : Session) (batches : List (List (Message Command))) :
    Prop where
  sent : messagesIn s.history = batches.flatten ++ s.mailbox
  echoes : s.Echoes (Relay.start.passBatches coalescing batches)

/-- As long as delivery goes on, it has passed on some batches. -/
def Passing (S : Setup) (s : Session) : Prop :=
  s.phase = .alive → ∃ batches, Passes S.config.coalescing s batches

variable {S : Setup} {s t : Session} {limit : Option Nat}

theorem Echoes.deliverEvents {r : Relay} {events : List Event} (echoes : s.Echoes r)
    (hs : s.phase = .alive) (ht : (s.deliverEvents S events).phase = .alive) :
    (s.deliverEvents S events).Echoes (r.passAll (events.map .event : List (Message Command))) ∧
      ∃ sent, messagesIn (s.deliverEvents S events).history = messagesIn s.history ++ sent ∧
        (s.deliverEvents S events).mailbox = s.mailbox ++ sent := by
  induction events generalizing s r with
  | nil => exact ⟨echoes, [], (List.append_nil _).symm, (List.append_nil _).symm⟩
  | cons e rest ih =>
    rw [Session.deliverEvents] at ht ⊢
    by_cases going : (s.deliverEvent S e).phase = .alive
    · simp only [going, if_true] at ht ⊢
      obtain ⟨first, sent, hmessages, hmailbox⟩ := echoes.deliverEvent hs going
      obtain ⟨later, more, hmore, hmailbox'⟩ := ih first going ht
      refine ⟨later, sent ++ more, ?_, ?_⟩
      · rw [hmore, hmessages, List.append_assoc]
      · rw [hmailbox', hmailbox, List.append_assoc]
    · simp only [going, if_false] at ht

theorem nextBatch_append (coalescing : Bool) (mailbox : List (Message Command)) :
    (Message.nextBatch coalescing mailbox).1 ++ (Message.nextBatch coalescing mailbox).2 =
      mailbox := by
  cases coalescing with
  | true => exact List.append_nil _
  | false => exact List.take_append_drop 1 mailbox

namespace Passes

variable {coalescing : Bool} {batches : List (List (Message Command))}

theorem posts (passes : Passes coalescing s batches) (alive : s.phase = .alive)
    (posts : Posts s t) : Passes coalescing t batches := by
  obtain ⟨sent, hmessages, hmailbox⟩ := posts.mail alive
  refine ⟨?_, passes.echoes.posts posts⟩
  rw [hmessages, passes.sent, hmailbox, List.append_assoc]

theorem acts (passes : Passes coalescing s batches) (alive : s.phase = .alive)
    (acts : Acts s t) : Passes coalescing t batches := by
  obtain ⟨deeds, does⟩ := acts
  refine ⟨?_, fun id => ?_, ?_⟩
  · rw [does.history, messagesIn_append, does.messages alive, passes.sent, does.mailbox,
      List.append_assoc]
  · rw [does.callbacks, passes.echoes.known]
  · rw [does.history, toldIn_append, does.untold, List.append_nil, passes.echoes.told]

/-- The next batch is passed on, if delivery goes on behind it. -/
theorem deliverRound (passes : Passes S.config.coalescing s batches) (before : s.phase = .alive)
    (alive : (s.deliverRound S).phase = .alive) : Passes S.config.coalescing (s.deliverRound S)
      (batches ++ [(Message.nextBatch S.config.coalescing s.mailbox).1]) := by
  obtain ⟨hsent, echoes⟩ := passes
  have whole := nextBatch_append S.config.coalescing s.mailbox
  have taken : (s.taken S).Echoes ((Message.nextBatch S.config.coalescing s.mailbox).1.foldl
      Relay.register (Relay.start.passBatches S.config.coalescing batches)) :=
    ⟨Relay.known_registered echoes.known _, echoes.told.trans (Relay.told_foldl_register _ _).symm⟩
  have delivered : ((s.taken S).deliverEvents S (s.dueEvents S)).phase = .alive := alive
  obtain ⟨after, sent, hmessages, hmailbox⟩ := taken.deliverEvents before delivered
  refine ⟨?_, ?_⟩
  · have same : messagesIn (s.taken S).history = batches.flatten ++ s.mailbox := hsent
    rw [deliverRound_eq, hmessages, hmailbox, same]
    nth_rewrite 1 [← whole]
    simp [Session.taken]
  · rw [Relay.passBatches_append]
    exact after

end Passes

/-- Delivery that goes on has gone on all the time. -/
theorem alive_of_deliverRound (alive : (s.deliverRound S).phase = .alive) : s.phase = .alive := by
  rcases (follows_deliverRound S s).phase with h | h
  · exact h.symm.trans alive
  · rw [h] at alive
    cases alive

namespace Passing

theorem posts (passing : Passing S s) (posts : Posts s t) : Passing S t := by
  intro alive
  have before : s.phase = .alive := posts.phase.symm.trans alive
  obtain ⟨batches, passes⟩ := passing before
  exact ⟨batches, passes.posts before posts⟩

theorem deliverRound (passing : Passing S s) : Passing S (s.deliverRound S) := by
  intro alive
  have before := alive_of_deliverRound alive
  obtain ⟨batches, passes⟩ := passing before
  exact ⟨_, passes.deliverRound before alive⟩

theorem next (passing : Passing S s) (next : s.next? S limit = some t) : Passing S t := by
  cases next_cases next with
  | delivered => exact passing.deliverRound
  | woke => exact passing.posts (.frame rfl)
  | worked _ works => exact passing.posts (.advance S works)

theorem run (limit : Option Nat) (passing : Passing S s) : Passing S (s.run S limit) := by
  fun_induction Session.run S limit s with
  | case1 s _ => exact passing
  | case2 s t next ih => exact ih (passing.next next)

theorem steps (passing : Passing S s) (steps : Steps S limit s t) : Passing S t := by
  induction steps with
  | refl => exact passing
  | tail _ next ih => exact ih.next next

theorem acts (passing : Passing S s) (acts : Acts s t) : Passing S t := by
  intro alive
  have before : s.phase = .alive := acts.phase.symm.trans alive
  obtain ⟨batches, passes⟩ := passing before
  exact ⟨batches, passes.acts before acts⟩

theorem ends (passing : Passing S s) (limit : Nat) (step : CallerStep) :
    Passing S (step.ends limit s).1 := passing.posts (.ends limit s step)

theorem step (passing : Passing S s) (step : CallerStep) : Passing S (s.step S step).1 := by
  cases begins : step.begins? s with
  | none =>
    rcases acts_of_still (S := S) begins with ⟨acts, -⟩ | rfl
    · exact passing.acts acts
    · exact fun alive => by cases alive
  | some run =>
    obtain ⟨limit, u⟩ := run
    rw [step_of_begins begins]
    exact ((passing.acts (acts_of_begins begins).1).run _).ends limit step

end Passing

/-- Delivery passes on batches in every session that a script leads to. -/
theorem passing_runScript (S : Setup) (steps : List CallerStep) :
    Passing S (start.runScript S steps) := by
  unfold runScript
  induction steps using List.reverseRecOn with
  | nil => exact fun _ => ⟨[], rfl, fun _ => rfl, rfl⟩
  | append_singleton steps step ih =>
    rw [List.foldl_append]
    exact ih.step step

end SerialDispatch.Session
