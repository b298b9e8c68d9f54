import SerialDispatch.Proofs.Dispatcher.Panic
import SerialDispatch.Proofs.Dispatcher.Schedule

/-!
# Shutting down after a callback has panicked

Delivery that has ended in a panic keeps no shutdown waiting: as soon as the worker has come to its
end, the shutdown has too, and it reports that delivery has died. Main statements:
`Session.Orderly.answered`, `Session.attending_runScript`.
-/
namespace SerialDispatch

/-- Whether the worker is busy with a dispatch that it is not done with. -/
def Stage.isBusy : Stage → Bool
  | .window .. | .ready _ | .running .. => true
  | _ => false

/-- Only a worker that is busy waits for a time. -/
theorem Stage.busy_of_lt_wake {stage : Stage} {time : Nat} (early : time < stage.wake) :
    stage.isBusy = true := by
  cases stage with
  | window | running => rfl
  | _ => cases early

namespace Session

variable {S : Setup} {s t u : Session} {since : Nat} {limit : Option Nat}

/-- A worker that is not busy has had nothing to wait for since a moment, or since it was done with
its latest dispatch. -/
def FreeSince (since : Nat) (s : Session) : Prop :=
  s.stage.isBusy = false → s.clock = since ∨ ∃ m ∈ releasedIn s.history, m.time = s.clock

namespace FreeSince

theorem extend (free : FreeSince since s) (past : s.history <+: t.history)
    (clock : t.clock = s.clock) (stage : s.stage.isBusy = true → t.stage.isBusy = true) :
    FreeSince since t := by
  intro idle
  have before : s.stage.isBusy = false := by
    by_contra busy
    rw [Bool.not_eq_false] at busy
    rw [stage busy] at idle
    cases idle
  rw [clock]
  refine (free before).imp id fun ⟨m, hm, time⟩ => ⟨m, ?_, time⟩
  exact ((past.filterMap _).filter _).subset hm

/-- A dispatch is released now. -/
theorem released (task : Task) {milestone : Milestone} (release : milestone.isRelease = true)
    (reached : .reached task milestone s.clock ∈ s.history) : FreeSince since s :=
  fun _ => .inr ⟨⟨task, milestone, s.clock⟩,
    List.mem_filter.2 ⟨List.mem_filterMap.2 ⟨_, reached, rfl⟩, release⟩, rfl⟩

theorem busy (busy : s.stage.isBusy = true) : FreeSince since s := fun idle => by
  rw [busy] at idle
  cases idle

theorem check (s : Session) (task : Task) : FreeSince since (s.check task) := by
  by_cases cancelled : s.tokens.isCancelled task.token = true
  · refine released task (show (Milestone.checked true).isRelease = true from rfl) ?_
    rw [(Chores.check s task).clock]
    unfold Session.check
    rw [if_pos cancelled]
    refine ((Acts.logWithin _ task (by simp)).trans (Acts.emit _ _ _)).past.subset ?_
    exact List.mem_of_mem_getLast? (by simp [Session.reach])
  · unfold Session.check
    rw [if_neg cancelled]
    exact busy rfl

theorem leaveBody (s : Session) (task : Task) (result : Option Result) :
    FreeSince since (s.leaveBody task result) := by
  refine released task (show (Milestone.returned result).isRelease = true from rfl) ?_
  show _ ∈ (s.record (.reached task (.returned result) s.clock)).history
  rw [history_record]
  exact List.mem_append_right _ List.mem_cons_self

theorem bodyStep (task : Task) (n : Nat) (rest : List BodyStep) (step : BodyStep) :
    FreeSince since (s.bodyStep S task n rest step) := by
  cases step with
  | stopIfCancelled steps =>
    simp only [Session.bodyStep]
    split
    · exact leaveBody _ _ _
    · exact busy rfl
  | panic => exact leaveBody _ _ _
  | finish kind status log => exact leaveBody _ _ _
  | _ => exact busy rfl

theorem advance (free : FreeSince since s) (h : s.advance? S = some t) : FreeSince since t := by
  have kept : s.stage.isBusy = false → FreeSince since t := fun idle =>
    free.extend (Posts.advance S h).past (clock_advance h) fun busy => by
      rw [idle] at busy
      cases busy
  cases advance_cases h with
  | check => exact check _ _
  | construct =>
    unfold construct
    dsimp only
    split
    · exact leaveBody _ _ _
    · exact busy rfl
  | endBody => exact leaveBody _ _ _
  | bodyStep => exact bodyStep _ _ _ _
  | windDown idle | take idle | leave idle => exact kept (by rw [idle]; rfl)
  | finishShutdown halted =>
    refine kept ?_
    cases hs : s.stage with
    | ended | dead => rfl
    | _ => rw [hs] at halted; cases halted

/-- Time passes only while the worker waits within a dispatch. -/
theorem next (free : FreeSince since s) (next : s.next? S limit = some t) : FreeSince since t := by
  cases next_cases next with
  | delivered =>
    have unmoved := Unmoved.deliverRound (S := S) s
    exact free.extend (follows_deliverRound S s).past unmoved.clock
      (by rw [unmoved.stage]; exact id)
  | woke early => exact busy (Stage.busy_of_lt_wake early)
  | worked _ works => exact free.advance works

theorem run (limit : Option Nat) (free : FreeSince since s) :
    FreeSince since (s.run S limit) := by
  fun_induction Session.run S limit s with
  | case1 s _ => exact free
  | case2 s t next ih => exact ih (free.next next)

end FreeSince

/-- When delivery has died, a shutdown in the background is not left behind by the worker. -/
def Attending (s : Session) : Prop :=
  s.phase ≠ .alive → s.owner = .closing → s.stage.isOver = false

theorem attending_run (S : Setup) (limit : Option Nat) (s : Session) :
    (s.run S limit).Attending := by
  have stops := run_next_none S limit s
  generalize s.run S limit = t at stops
  intro dead closing
  by_contra halted
  rw [Bool.not_eq_false] at halted
  have empty := mailbox_of_rest stops
  rw [next_of_settled (by simp [empty]), work_over halted] at stops
  simp [closing, isComplete, halted, dead] at stops

theorem Attending.step (attending : s.Attending) (S : Setup) (step : CallerStep) :
    (s.step S step).1.Attending := by
  cases begins : step.begins? s with
  | none =>
    rcases acts_of_still (S := S) begins with ⟨acts, unmoved⟩ | rfl
    · intro dead closing
      rw [unmoved.stage]
      exact attending (by rw [← acts.phase]; exact dead) (unmoved.closing.1 closing)
    · intro dead closing
      simp only [Session.step, teardown] at closing
      split at closing
      · cases closing
      · rename_i other
        exact absurd closing other
  | some run =>
    obtain ⟨limit, u⟩ := run
    have ran := attending_run S (some limit) u
    rw [step_of_begins begins]
    generalize u.run S (some limit) = v at ran
    cases step with
    | shutdown =>
      simp only [CallerStep.ends]
      split
      · intro dead closing
        have owner : v.logShutdown.owner = v.owner := by
          unfold logShutdown
          dsimp only
          split <;> split <;> rfl
        rw [(logShutdown_same v).1]
        exact ran (by rw [← (Posts.logShutdown v).phase]; exact dead) (owner.symm.trans closing)
      · exact ran
    | _ => exact ran

/-- No script leaves one behind. -/
theorem attending_runScript (S : Setup) (steps : List CallerStep) :
    (start.runScript S steps).Attending := by
  unfold runScript
  induction steps using List.reverseRecOn with
  | nil => exact fun _ closing => by cases closing
  | append_singleton steps step ih =>
    rw [List.foldl_append]
    exact ih.step S step

/-- Once the signal to stop has been given, it stays. -/
theorem Booked.stopping (booked : Booked S s) (signalled : .stopping ∈ s.history) :
    s.inbox.stopping = true := by
  obtain ⟨⟨l, run, fits⟩, -⟩ := booked
  refine fits.stopping.symm.trans (run.stopping.trans ?_)
  exact (Bool.false_or _).trans (List.any_eq_true.2 ⟨_, signalled, rfl⟩)

/-- When there is nothing to be done before a time, a worker that is to stop has stopped or is busy
until then. -/
theorem busy_of_rest {time : Nat} (stops : s.next? S (some time) = none)
    (stopping : s.inbox.stopping = true) (going : s.stage.isOver = false) :
    s.stage.isBusy = true ∧ time ≤ s.stage.wake := by
  obtain ⟨-, ⟨early, soon⟩ | ⟨-, nothing⟩⟩ := next_none_cases stops
  · exact ⟨Stage.busy_of_lt_wake early, by simpa [Timer.isBefore] using soon⟩
  · obtain ⟨-, unsignalled, -⟩ := idle_of_advance_none going nothing
    rw [stopping] at unsignalled
    cases unsignalled

/-- What a shutdown of the caller that began at `since` comes to when delivery has died by its end,
and how it is answered. -/
inductive Answered (since : Nat) (s : Session) : Reply → Prop
  /-- The worker has ended, at once or when it was done with its latest dispatch, and delivery is
  reported to have died. -/
  | stopped (ended : s.stage = .ended) (free : FreeSince since s)
      (reported : ∃ before, s.history = before ++ [.log ⟨s.clock, none, .deliveryDied⟩]) :
      Answered since s .stopped
  /-- The worker is busy for longer than a shutdown waits. -/
  | pending (busy : s.stage.isBusy = true) (waited : s.clock = since + patience)
      (late : s.clock ≤ s.stage.wake) : Answered since s .pending

theorem Orderly.answered (orderly : Orderly S s) (there : s.alive = true) (held : s.owner = .held)
    (dead : (s.step S .shutdown).1.phase ≠ .alive) :
    Answered s.clock (s.step S .shutdown).1 (s.step S .shutdown).2 := by
  have begins : CallerStep.shutdown.begins? s =
      some (s.clock + patience, { s.signalStop .gone with turn := .first }) := by
    simp [CallerStep.begins?, there, held]
  have ran : Orderly S ({ s.signalStop .gone with turn := .first }.run S
      (some (s.clock + patience))) := (orderly.begins begins).run _ there
  have free : FreeSince s.clock ({ s.signalStop .gone with turn := .first }.run S
      (some (s.clock + patience))) := FreeSince.run _ fun _ => .inl rfl
  have signalled : .stopping ∈ ({ s.signalStop .gone with turn := .first }.run S
      (some (s.clock + patience))).history := by
    refine (follows_run S _ _).past.subset ?_
    show _ ∈ (s.signalStop .gone).history
    rw [signalStop, history_record]
    exact List.mem_append_right _ List.mem_cons_self
  have stops := run_next_none S (some (s.clock + patience))
    { s.signalStop .gone with turn := .first }
  have alive := (follows_run S (some (s.clock + patience))
    { s.signalStop .gone with turn := .first }).alive.trans there
  rw [step_of_begins begins] at dead ⊢
  rw [phase_ends] at dead
  generalize { s.signalStop .gone with turn := .first }.run S (some (s.clock + patience)) = v at *
  have stopping := ran.booked.stopping signalled
  have undead := ran.undead alive
  have complete : v.isComplete = v.stage.isOver := by simp [isComplete, dead]
  simp only [CallerStep.ends, complete]
  cases halted : v.stage.isOver with
  | true =>
    have ended : v.stage = .ended := by
      cases hs : v.stage with
      | ended => rfl
      | dead => exact absurd hs undead
      | _ => rw [hs] at halted; cases halted
    have reported := history_logShutdown undead
    have clock := (Arrives.logShutdown v).clock
    rw [if_neg dead, ← clock] at reported
    exact .stopped ((logShutdown_same v).1.trans ended)
      (free.extend (Posts.logShutdown v).past clock fun busy => by rw [ended] at busy; cases busy)
      ⟨_, reported⟩
  | false =>
    obtain ⟨busy, late⟩ := busy_of_rest stops stopping halted
    exact .pending busy rfl late

end Session
end SerialDispatch
