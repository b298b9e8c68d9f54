import SerialDispatch.Codec.Log
import SerialDispatch.Proofs.Dispatcher.Caller
import SerialDispatch.Proofs.Dispatcher.Journal
import SerialDispatch.Proofs.Dispatcher.Requests

/-!
# The logs of a session that was shut down

When a shutdown has returned every dispatch that was accepted is over, and the logs say how it went:
that it was queued, whether somebody asked in time to cancel it, and in the worker's log one chapter
that fits the terminal signal which was sent. Main statement: `Session.logs_tell`.
-/
namespace SerialDispatch

/-- A shutdown has returned: one that the caller has waited for, or one in the background. -/
inductive ShutDown (S : Setup) (steps : List CallerStep) : Prop
  | awaited {earlier later : List CallerStep} (split : steps = earlier ++ .shutdown :: later)
      (returned : ((Session.start.runScript S earlier).step S .shutdown).2 = .stopped)
  | background {time : Nat}
      (returned : .note (.shutdownDone time) ∈ (Session.start.runScript S steps).history)

namespace Instant

variable {S : Setup} {steps : List CallerStep} {i j k : Instant} {id : DispatchId}

/-- Worker and delivery go on only where there is something to run on. -/
theorem Occurs.there (occurs : Occurs S steps i) :
    i.focus = .caller ∨ i.session.alive = true := by
  induction occurs with
  | refl => exact .inl rfl
  | @tail i j before next ih =>
    cases move_of_next next with
    | still => exact .inl rfl
    | ended => exact .inl rfl
    | begun begins =>
      obtain ⟨acts, there⟩ := Session.acts_of_begins begins
      exact .inr (acts.alive.trans there)
    | worked settled works =>
      rw [← Session.next_of_settled settled] at works
      exact .inr ((Session.follows_next works).alive.trans (ih.resolve_left nofun))
    | @reacted s _ _ _ _ _ callback c =>
      exact .inr ((Session.Posts.react S callback s c).alive.trans (ih.resolve_left nofun))
    | _ => exact .inr (ih.resolve_left nofun)

/-- What happens, happens between two instants. -/
theorem Occurs.between (occurs : Occurs S steps k) {before after : List Happening} {h : Happening}
    (split : k.session.history = before ++ h :: after) :
    ∃ i j past, Occurs S steps i ∧ i.next? S = some j ∧ before = i.session.history ++ past ∧
      ∃ more, j.session.history = i.session.history ++ more ∧ h ∈ more := by
  induction occurs generalizing after with
  | refl => cases before <;> cases split
  | @tail i j earlier next ih =>
    obtain ⟨more, hmore⟩ := (move_of_next next).past
    rw [← hmore] at split
    rcases List.append_eq_append_iff.1 split with ⟨past, rfl, rfl⟩ | ⟨past, hi, rest⟩
    · exact ⟨i, j, past, earlier, next, rfl, _, hmore.symm, by simp⟩
    · cases past with
      | nil =>
        rw [List.nil_append] at rest
        exact ⟨i, j, [], earlier, next, by simpa using hi.symm, _, hmore.symm, by simp [← rest]⟩
      | cons h past =>
        obtain ⟨rfl, -⟩ := List.cons_eq_cons.1 rest
        exact ih hi

/-- Whoever was asked in time to be cancelled was cancelled through its handle before it was
discarded. -/
theorem asked_iff (S : Setup) (steps : List CallerStep) :
    AskedInTime (Session.start.runScript S steps).history id ↔
      ∃ i token, Occurs S steps i ∧ i.Cancels id token ∧
        .discarded ∉ milestonesIn i.session.history id := by
  constructor
  · rintro ⟨before, after, split, undiscarded⟩
    obtain ⟨i, j, past, occurs, next, rfl, more, hmore, now⟩ :=
      (occurs_last S steps).between split
    obtain ⟨token, cancels⟩ := cancels_of_next next hmore now
    refine ⟨i, token, occurs, cancels, fun discarded => undiscarded ?_⟩
    rw [milestonesIn_append]
    exact List.mem_append_left _ discarded
  · rintro ⟨i, token, occurs, ⟨handle, command, found⟩, undiscarded⟩
    have added : (i.session.history ++ [.cancelled id]) <+:
        (i.session.perform S (.cancel handle)).1.history := by
      rw [Session.perform, Session.cancel, found]
      dsimp only
      split
      · exact (Session.history_record _ _).symm ▸ List.prefix_rfl
      · rw [Session.history_log, Session.history_record]
        exact List.prefix_append _ _
    have next := next_of_command (S := S) command
    have past := Occurs.past (Relation.ReflTransGen.tail occurs next)
    obtain ⟨rest, hrest⟩ := (added.trans (past_carriedOut command _)).trans past
    rw [← hrest]
    exact ⟨i.session.history, rest, by simp, undiscarded⟩

end Instant

namespace ShutDown

variable {S : Setup} {steps : List CallerStep}

/-- A shutdown returns only when the worker has come to its end. -/
theorem ended (shutDown : ShutDown S steps) :
    ∃ i, Instant.Occurs S steps i ∧ i.session.stage = .ended := by
  cases shutDown with
  | @awaited earlier later split returned =>
    have occurs := Instant.occurs_between (S := S) (earlier ++ [.shutdown]) later
    rw [List.append_assoc, List.singleton_append, ← split] at occurs
    refine ⟨_, occurs, ?_⟩
    have last : Session.start.runScript S (earlier ++ [.shutdown]) =
        ((Session.start.runScript S earlier).step S .shutdown).1 := List.foldl_append
    show (Session.start.runScript S (earlier ++ [.shutdown])).stage = .ended
    rw [last]
    exact Session.ended_of_stopped (Session.booked_runScript S earlier) returned
  | background returned =>
    obtain ⟨i, j, occurs, -, -, occasion, -⟩ :=
      Instant.Occurs.occasion (r := .closure) (Instant.occurs_last S steps) rfl returned
    refine ⟨i, occurs, ?_⟩
    cases occasion with
    | @commanded c _ command brings =>
      cases c with
      | start => rcases brings with h | ⟨h, -⟩ <;> cases h
      | cancel => rcases brings with h | h <;> cases h
      | drop => cases brings
      | unreadable => cases brings
    | closing focus halted =>
      have there := occurs.there.resolve_left (by rw [focus]; nofun)
      have dead := (Instant.Occurs.booked occurs).2
      cases hs : i.session.stage with
      | ended => rfl
      | dead => rw [(dead hs).2] at there; cases there
      | _ => rw [hs] at halted; cases halted

/-- Then every dispatch that is ever accepted is over. -/
theorem settled (shutDown : ShutDown S steps) {l : Ledger}
    (run : Ledger.Run S .empty (Session.start.runScript S steps).history l) {slip : Slip}
    (accepted : slip ∈ acceptedIn (Session.start.runScript S steps).history) :
    ∃ fate, (slip, fate) ∈ l.settled := by
  obtain ⟨i, occurs, hs⟩ := shutDown.ended
  obtain ⟨⟨m, early, fits⟩, -⟩ := Instant.Occurs.booked occurs
  obtain ⟨after, hafter⟩ := Instant.Occurs.past occurs
  obtain ⟨free, done, -⟩ := fits.done hs
  have stopping : i.session.history.any Happening.isStopping = true :=
    early.stopping.symm.trans (fits.stopping.trans (fits.ended hs))
  rw [← hafter] at run accepted
  rw [acceptedIn_append, run.accepted_of_over (.inl stopping), List.append_nil] at accepted
  obtain ⟨fate, hsettled⟩ := early.settled_of_done free done accepted
  obtain ⟨later, -, signals⟩ := early.signals _ (Ledger.mem_roll_of_settled hsettled)
  have finished : .finished (fate.outcome slip.kind) ∈
      signalsIn (i.session.history ++ after) slip.id := by
    rw [signalsIn_append, signals]
    simp
  refine run.settled_of_finished ?_ finished
  rw [run.accepted_of_empty, acceptedIn_append]
  exact List.mem_append_left _ accepted

end ShutDown

namespace Slip

/-- How the chapter of a dispatch reads, and what else is true of it then. -/
inductive Reads (S : Setup) (history : List Happening) (slip : Slip) : List Line → Prop
  | dropped (unstarted : slip.Unstarted history)
      (discarded : .discarded ∈ milestonesIn history slip.id) :
      Reads S history slip [⟨none, .queuedDropped slip.id⟩]
  | cancelled (unstarted : slip.Unstarted history)
      (kept : .discarded ∉ milestonesIn history slip.id) :
      Reads S history slip (slip.task.opening S ++ [slip.task.line .cancelledBeforeStart])
  | completed {x : Execution} {result : Option Result}
      (completed : slip.Completed S history x result) :
      Reads S history slip (slip.task.opening S ++ slip.task.closing result)

/-- What the logs of a session say of a dispatch. -/
structure Recorded (S : Setup) (steps : List CallerStep) (history : List Happening)
    (slip : Slip) : Prop where
  /-- The dispatch is what a start has submitted; its window depends on what the callback asked
  for. -/
  submitted : ∃ i request input surface panicsOn reactions, Instant.Occurs S steps i ∧
    i.command? = some (.start request input surface panicsOn reactions) ∧
      slip = i.session.slip request input surface
  queued : (queuedIn history).filter (fun ticket => ticket.1 = slip.id) = [(slip.id, slip.kind)]
  requests : requestsIn history slip.id ≤ 1
  requested : requestsIn history slip.id = 1 ↔ ∃ i token, Instant.Occurs S steps i ∧
    i.Cancels slip.id token ∧ .discarded ∉ milestonesIn i.session.history slip.id
  reads : slip.Reads S history (slip.chapter S history)
  complete : (∃ result, .finished (.completed result) ∈ signalsIn history slip.id) ↔
    ∃ status, slip.task.line (.operationComplete status) ∈ slip.chapter S history
  outcome : ∀ result status, .finished (.completed result) ∈ signalsIn history slip.id →
    slip.task.line (.operationComplete status) ∈ slip.chapter S history →
      (LogEvent.operationComplete status).fields = [("outcome", .string result.label)]

section Reading

variable {S : Setup} {history : List Happening} {slip : Slip} {signals : List Signal}
variable {outcome other : Outcome} {status : Status} {result : Option Result}

theorem Ends.finished_iff (ends : slip.Ends history signals outcome) :
    .finished other ∈ signalsIn history slip.id ↔ other = outcome := by
  have filtered : .finished other ∈ signalsIn history slip.id ↔
      .finished other ∈ (signalsIn history slip.id).filter Signal.isFinished := by
    simp [Signal.isFinished]
  rw [filtered, ends.once, List.mem_singleton, Signal.finished.injEq]

theorem uncompleted_of_opening :
    slip.task.line (.operationComplete status) ∉ slip.task.opening S := by
  unfold Task.opening
  split <;> simp [Task.line]

theorem completed_of_closing :
    slip.task.line (.operationComplete status) ∈ slip.task.closing result ↔
      status = (result.getD (.ofPanic slip.kind)).status := by
  unfold Task.closing
  split <;> simp [Task.line, Slip.kind]

/-- The terminal signal of a dispatch carries a result if its chapter says that the operation is
complete, and then that says what the result is. -/
theorem Reads.complete {chapter : List Line} (reads : slip.Reads S history chapter)
    (result : Result) (finished : .finished (.completed result) ∈ signalsIn history slip.id) :
    slip.task.line (.operationComplete status) ∈ chapter ↔ status = result.status := by
  cases reads with
  | dropped unstarted => cases unstarted.ends.finished_iff.1 finished
  | cancelled unstarted => cases unstarted.ends.finished_iff.1 finished
  | completed completed =>
    rw [List.mem_append, or_iff_right uncompleted_of_opening, completed_of_closing,
      Outcome.completed.inj (completed.ends.finished_iff.1 finished)]

/-- No chapter says so without a result. -/
theorem Reads.completed_of_line {chapter : List Line} (reads : slip.Reads S history chapter)
    (complete : slip.task.line (.operationComplete status) ∈ chapter) :
    ∃ result, .finished (.completed result) ∈ signalsIn history slip.id := by
  cases reads with
  | dropped => simp [Task.line] at complete
  | cancelled =>
    rcases List.mem_append.1 complete with opens | closes
    · exact absurd opens uncompleted_of_opening
    · simp [Task.line] at closes
  | completed completed => exact ⟨_, completed.ends.finished_iff.2 rfl⟩

end Reading

end Slip

namespace Ledger

variable {S : Setup} {l : Ledger} {history : List Happening} {slip : Slip}

/-- The chapter of a dispatch that is over. -/
theorem Run.reads (run : Run S .empty history l) {fate : Fate}
    (hsettled : (slip, fate) ∈ l.settled) :
    slip.Reads S history (slip.chapter S history) := by
  have ended := run.ended hsettled
  have hroll := mem_roll_of_settled hsettled
  have hslip : slip ∈ l.accepted := List.mem_map_of_mem hroll
  have discarded : .discarded ∈ (Stand.settled fate).milestones slip ↔ _ := Stand.mem_discarded_iff
  rw [← run.milestones _ hroll] at discarded
  rw [run.chapter_of_settled hsettled]
  cases fate with
  | dropped => exact .dropped ended (discarded.2 rfl)
  | barred => exact .cancelled ended fun dropped => by cases discarded.1 dropped
  | ran x result => exact .completed ended

/-- An id stands for one of the dispatches that are logged as queued. -/
theorem Run.filter_tickets (run : Run S .empty history l) (hslip : slip ∈ acceptedIn history) :
    ((acceptedIn history).map Slip.ticket).filter (fun ticket => ticket.1 = slip.id) =
      [(slip.id, slip.kind)] := by
  have ascending := run.ordered.ascending
  rw [run.accepted_of_empty] at ascending
  obtain ⟨before, after, split⟩ := List.append_of_mem hslip
  rw [split, List.pairwise_append, List.pairwise_cons] at ascending
  obtain ⟨-, ⟨behind, -⟩, ahead⟩ := ascending
  have none : ∀ slips : List Slip, (∀ other ∈ slips, other.id ≠ slip.id) →
      (slips.map Slip.ticket).filter (fun ticket => ticket.1 = slip.id) = [] := by
    intro slips others
    refine List.filter_eq_nil_iff.2 fun ticket hticket => ?_
    obtain ⟨other, hother, rfl⟩ := List.mem_map.1 hticket
    simp [Slip.ticket, others other hother]
  rw [split, List.map_append, List.map_cons, List.filter_append,
    none before fun other hother => Nat.ne_of_lt (ahead other hother slip List.mem_cons_self),
    List.filter_cons_of_pos (by simp [Slip.ticket]),
    none after fun other hother => Nat.ne_of_gt (behind other hother)]
  rfl

end Ledger

namespace Session

/-- The logs of a session that has come to `s` by a script. -/
structure Logged (S : Setup) (steps : List CallerStep) (s : Session) : Prop where
  /-- The worker's log is the chapters of the dispatches, in order of submission. -/
  journal : journalIn s.history = (acceptedIn s.history).flatMap (Slip.chapter S s.history)
  recorded : ∀ slip ∈ acceptedIn s.history, slip.Recorded S steps s.history

/-- The logs of a session in which a shutdown has returned tell what became of every dispatch. -/
theorem logs_tell (S : Setup) (steps : List CallerStep) (shutDown : ShutDown S steps) :
    Logged S steps (start.runScript S steps) := by
  have occurs := Instant.occurs_last S steps
  obtain ⟨⟨l, run, -⟩, -⟩ := booked_runScript S steps
  refine ⟨journal_in_chapters S steps, fun slip accepted => ?_⟩
  obtain ⟨fate, hsettled⟩ := shutDown.settled run accepted
  have reads := run.reads hsettled
  have asked := @Instant.asked_iff slip.id S steps
  have heard : Heard (start.runScript S steps).history slip.id := occurs.heard accepted
  refine ⟨occurs.accepted accepted, ?_, ?_, ?_, reads, ⟨?_, ?_⟩, ?_⟩
  · rw [(journalIn_runScript S steps).2]
    exact run.filter_tickets accepted
  · cases heard with
    | asked inTime once => exact Nat.le_of_eq once
    | unasked never none => exact none ▸ Nat.zero_le 1
  · rw [← asked]
    cases heard with
    | asked inTime once => exact ⟨fun _ => inTime, fun _ => once⟩
    | unasked never none =>
      rw [none]
      exact ⟨nofun, fun asked => absurd asked never⟩
  · rintro ⟨result, finished⟩
    exact ⟨result.status, (reads.complete result finished).2 rfl⟩
  · rintro ⟨status, complete⟩
    exact reads.completed_of_line complete
  · intro result status finished complete
    rw [(reads.complete result finished).1 complete]
    rfl

/-- Of three dispatches the first is given a window and run, the second is cancelled while the first
is running, and the third is discarded. -/
theorem logs_tell_of_three :
    ShutDown (.sample []) [.begin .backup .needed, .begin .revoke .unneeded, .sleep 205,
      .command (.cancel 1), .sleep 20, .begin .upload .needed, .shutdown] ∧
    Logged (.sample []) [.begin .backup .needed, .begin .revoke .unneeded, .sleep 205,
      .command (.cancel 1), .sleep 20, .begin .upload .needed, .shutdown]
      (start.runScript (.sample []) [.begin .backup .needed, .begin .revoke .unneeded, .sleep 205,
        .command (.cancel 1), .sleep 20, .begin .upload .needed, .shutdown]) :=
  have shutDown := @ShutDown.awaited (.sample []) _ [.begin .backup .needed,
    .begin .revoke .unneeded, .sleep 205, .command (.cancel 1), .sleep 20, .begin .upload .needed]
    [] rfl (answer_of_within 60 Prod.snd rfl)
  ⟨shutDown, logs_tell _ _ shutDown⟩

end Session
end SerialDispatch
