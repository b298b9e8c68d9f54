import Mathlib.Data.List.Basic
import SerialDispatch.Proofs.Dispatcher.Fates
import SerialDispatch.Proofs.Dispatcher.Schedule

/-!
# The journal of the worker

What the worker logs is determined by the milestones of the dispatches: each of them calls for its
lines, and whatever the worker does, it has logged what was called for, except that it still owes
the lines of an operation that it has not left yet. As the worker is at one dispatch at a time, what
it has logged between two steps of the caller is one chapter for every dispatch, in order of
submission; main statement: `Session.journal_in_chapters`.
-/
namespace SerialDispatch

/-- A log entry without its time. -/
structure Line where
  span : Option Span
  event : LogEvent
  deriving DecidableEq, Repr

namespace Task

/-- A line within the span of a task. -/
def line (task : Task) (event : LogEvent) : Line := ⟨some task.span, event⟩

/-- What is logged of the window that a task is given, if it is given one. -/
def opening (S : Setup) (task : Task) : List Line :=
  if task.waits && S.config.quiescence ≠ 0 then [task.line (.waiting S.config.quiescence)] else []

/-- What is logged of an operation that is over; without a result, it has panicked. -/
def closing (task : Task) (result : Option Result) : List Line :=
  (if result.isNone then [task.line .operationPanicked] else []) ++
    [task.line (.operationComplete (result.getD (.ofPanic task.request.kind)).status)]

/-- What the worker is to log of a milestone. -/
def journal (S : Setup) (task : Task) : Milestone → List Line
  | .taken => task.opening S
  | .checked true => [task.line .cancelledBeforeStart]
  | .returned result => task.closing result
  | .discarded => [⟨none, .queuedDropped task.id⟩]
  | _ => []

end Task

/-- What the worker has still to log. -/
def Stage.owed : Stage → List Line
  | .leaving task result => task.closing result
  | _ => []

/-- What the caller logs of a dispatch that is accepted. -/
def Slip.ticket (slip : Slip) : DispatchId × Kind := (slip.id, slip.kind)

namespace Happening

/-- What the worker logs. -/
def line? : Happening → Option Line
  | .log record => if record.event.party = .worker then some ⟨record.span, record.event⟩ else none
  | _ => none

/-- The dispatch that is logged as queued. -/
def queued? : Happening → Option (DispatchId × Kind)
  | .log record =>
    match record.event with
    | .dispatchQueued id kind => some (id, kind)
    | _ => none
  | _ => none

/-- What the worker is to log of what happens. -/
def due (S : Setup) : Happening → List Line
  | .reached task milestone _ => task.journal S milestone
  | _ => []

/-- What is neither logged by the worker nor calls for it, and is no acceptance. -/
structure Aside (S : Setup) (h : Happening) : Prop where
  unlined : h.line? = none
  undue : h.due S = []
  unqueued : h.queued? = none
  unaccepted : h.accepted? = none

end Happening

section Views

variable (S : Setup) (history more : List Happening) (h : Happening)

/-- What the worker logs, in order. -/
def journalIn : List Line := history.filterMap Happening.line?

/-- The dispatches that are logged as queued, in order. -/
def queuedIn : List (DispatchId × Kind) := history.filterMap Happening.queued?

/-- What the worker is to log of a history. -/
def dueIn : List Line := history.flatMap (Happening.due S)

@[simp] theorem journalIn_append :
    journalIn (history ++ more) = journalIn history ++ journalIn more := List.filterMap_append

@[simp] theorem queuedIn_append :
    queuedIn (history ++ more) = queuedIn history ++ queuedIn more := List.filterMap_append

@[simp] theorem dueIn_append : dueIn S (history ++ more) = dueIn S history ++ dueIn S more :=
  List.flatMap_append

@[simp] theorem journalIn_singleton : journalIn [h] = h.line?.toList := filterMap_singleton _ h

@[simp] theorem queuedIn_singleton : queuedIn [h] = h.queued?.toList := filterMap_singleton _ h

@[simp] theorem dueIn_singleton : dueIn S [h] = h.due S := by simp [dueIn]

end Views

namespace Session

/-- From the one session to the other the worker logs what it owed and what is called for, but for
what it then owes; and of each dispatch that is accepted it is logged that it is queued. -/
structure Tells (S : Setup) (owed owed' : List Line) (s t : Session) : Prop where
  logged : ∃ more, t.history = s.history ++ more ∧
    journalIn more ++ owed' = owed ++ dueIn S more ∧
    queuedIn more = (acceptedIn more).map Slip.ticket

namespace Tells

variable {S : Setup} {owed owed' owed'' : List Line} {s t u : Session}

theorem frame (trail : t.trail = s.trail) : Tells S owed owed s t :=
  ⟨[], by rw [history, trail, List.append_nil]; rfl, (List.append_nil _).symm, rfl⟩

theorem refl (s : Session) : Tells S owed owed s s := frame rfl

theorem trans (first : Tells S owed owed' s t) (second : Tells S owed' owed'' t u) :
    Tells S owed owed'' s u := by
  obtain ⟨more, hmore, told, queued⟩ := first.logged
  obtain ⟨rest, hrest, others, behind⟩ := second.logged
  refine ⟨more ++ rest, by rw [hrest, hmore, List.append_assoc], ?_, ?_⟩
  · rw [journalIn_append, dueIn_append, List.append_assoc, others, ← List.append_assoc, told,
      List.append_assoc]
  · rw [queuedIn_append, acceptedIn_append, List.map_append, queued, behind]

theorem aside (s : Session) {h : Happening} (aside : h.Aside S) :
    Tells S owed owed s (s.record h) := by
  refine ⟨[h], history_record s h, ?_, ?_⟩
  · rw [journalIn_singleton, dueIn_singleton, aside.unlined, aside.undue, List.append_nil]
    rfl
  · rw [queuedIn_singleton, acceptedIn_singleton, aside.unqueued, aside.unaccepted]
    rfl

theorem note (s : Session) (n : WorkerNote) : Tells S owed owed s (s.note n) :=
  aside s ⟨rfl, rfl, rfl, rfl⟩

/-- What others than the worker log. -/
theorem log (s : Session) {event : LogEvent} (others : event.party ≠ .worker)
    (unqueued : ∀ id kind, event ≠ .dispatchQueued id kind) :
    Tells S owed owed s (s.log event) := by
  refine aside s ⟨if_neg others, rfl, ?_, rfl⟩
  cases event with
  | dispatchQueued id kind => exact absurd rfl (unqueued id kind)
  | _ => rfl

theorem send (s : Session) (m : Message Command) : Tells S owed owed s (s.send m) := by
  unfold Session.send
  split
  · exact (frame rfl : Tells S owed owed s { s with mailbox := s.mailbox ++ [m] }).trans
      (aside _ ⟨rfl, rfl, rfl, rfl⟩)
  · exact aside s ⟨rfl, rfl, rfl, rfl⟩

theorem emit (s : Session) (id : DispatchId) (signal : Signal) :
    Tells S owed owed s (s.emit id signal) := send s _

/-- A milestone calls for its lines. -/
theorem reach (s : Session) (task : Task) (milestone : Milestone)
    (later : ∀ callback, milestone ≠ .submitted callback) :
    Tells S owed (owed ++ task.journal S milestone) s (s.reach task milestone) := by
  refine ⟨[.reached task milestone s.clock], history_record _ _, ?_, ?_⟩
  · rw [dueIn_singleton]
    rfl
  · cases milestone with
    | submitted callback => exact absurd rfl (later callback)
    | _ => rfl

/-- A milestone that calls for nothing. -/
theorem pass (s : Session) (task : Task) (milestone : Milestone)
    (later : ∀ callback, milestone ≠ .submitted callback)
    (nothing : task.journal S milestone = []) :
    Tells S owed owed s (s.reach task milestone) := by
  have reached : Tells S owed (owed ++ task.journal S milestone) s (s.reach task milestone) :=
    reach s task milestone later
  rwa [nothing, List.append_nil] at reached

/-- The worker logs what it owed first. -/
theorem line (s : Session) (span : Option Span) {event : LogEvent}
    (worker : event.party = .worker) :
    Tells S (⟨span, event⟩ :: owed) owed s (s.record (.log ⟨s.clock, span, event⟩)) := by
  refine ⟨[.log ⟨s.clock, span, event⟩], history_record _ _, ?_, ?_⟩
  · simp [Happening.line?, Happening.due, worker]
  · cases event <;> first | rfl | cases worker

theorem logWithin (s : Session) (task : Task) {event : LogEvent} (worker : event.party = .worker) :
    Tells S (task.line event :: owed) owed s (s.logWithin task event) := line s _ worker

theorem signalStop (s : Session) (owner : Owner) : Tells S owed owed s (s.signalStop owner) := by
  have signalled : Tells S owed owed s { s with owner := owner, inbox := s.inbox.stop } := frame rfl
  exact signalled.trans (aside _ ⟨rfl, rfl, rfl, rfl⟩)

/-- That a dispatch is accepted is logged with it. -/
theorem accept (s : Session) (inbox : Inbox Task) (callback : Nat) (task : Task) :
    Tells S owed owed s (({ s with inbox := inbox }.reach task (.submitted callback)).log
      (.dispatchQueued task.id task.request.kind)) := by
  refine ⟨[.reached task (.submitted callback) s.clock,
    .log ⟨s.clock, none, .dispatchQueued task.id task.request.kind⟩], ?_, ?_, rfl⟩
  · rw [history_log, history_reach, List.append_assoc]
    rfl
  · exact (List.append_nil _).symm

theorem perform (s : Session) (c : Command) : Tells S owed owed s (s.perform S c).1 := by
  refine lift_parts (Dealings.perform S s c) (fun _ => refl _) trans fun {u v} dealing => ?_
  cases dealing with
  | own same => exact frame (by rw [same])
  | sent m => exact send u m
  | accepted => exact accept u _ _ _
  | refused => exact log u (fun h => by cases h) fun _ _ h => by cases h
  | handed handle => exact frame rfl
  | cancelled id => exact aside u ⟨rfl, rfl, rfl, rfl⟩
  | requested id => exact log u (fun h => by cases h) fun _ _ h => by cases h
  | stopped => exact signalStop u .gone

section Delivery

theorem deliverRound (s : Session) : Tells S owed owed s (s.deliverRound S) := by
  have taken : ∀ mailbox callbacks turn, Tells S owed owed s
      { s with mailbox := mailbox, callbacks := callbacks, turn := turn } := fun _ _ _ => frame rfl
  refine (taken _ _ _).trans (lift_parts (carrying_deliverEvents S _ _) (fun _ => refl _) trans
    fun {u v} carries => ?_)
  cases carries with
  | unclaimed e => exact log u (fun h => by cases h) fun _ _ h => by cases h
  | called callback e =>
    have called : Tells S owed owed u { u with callbacks := u.callbacks.after e } := frame rfl
    exact called.trans (aside _ ⟨rfl, rfl, rfl, rfl⟩)
  | panicked => exact frame rfl
  | reacted callback c => exact (perform u c).trans (aside _ ⟨rfl, rfl, rfl, rfl⟩)

theorem logShutdown (s : Session) : Tells S owed owed s s.logShutdown :=
  logShutdown_induct (motive := (Tells S owed owed s ·)) (refl s)
    (fun u tells => tells.trans (log u (fun h => by cases h) fun _ _ h => by cases h))
    fun u tells => tells.trans (log u (fun h => by cases h) fun _ _ h => by cases h)

theorem finishShutdown (s : Session) : Tells S owed owed s s.finishShutdown := by
  have gone : Tells S owed owed s { s with owner := .gone } := frame rfl
  exact (gone.trans (logShutdown _)).trans (note _ _)

theorem through (s : Session) (sink : Nat) (signal : Signal) :
    Tells S owed owed s (s.through sink signal).1 := by
  unfold Session.through
  cases s.sinkHeld sink with
  | none => exact refl s
  | some id => exact (aside s ⟨rfl, rfl, rfl, rfl⟩).trans (emit _ _ _)

end Delivery

section Worker

variable (task : Task)

/-- Whether the token is raised or not, the worker owes nothing when it has looked at it. -/
theorem check (s : Session) : Tells S [] (s.check task).stage.owed s (s.check task) := by
  unfold Session.check
  split
  · have barred : Tells S [] [task.line .cancelledBeforeStart] s (s.reach task (.checked true)) :=
      reach s task (.checked true) fun _ h => by cases h
    exact ((barred.trans (logWithin _ _ rfl)).trans (emit _ _ _)).trans (frame rfl)
  · exact (pass s task (.checked false) (fun _ h => by cases h) rfl).trans (frame rfl)

theorem take (s : Session) (rest : List Task) :
    Tells S [] (s.take S task rest).stage.owed s (s.take S task rest) := by
  have taken : Tells S [] [] s { s with
      inbox := { s.inbox with waiting := rest }, turn := s.turn.worked } := frame rfl
  have reached := taken.trans (reach _ task .taken fun _ h => by cases h)
  rw [List.nil_append, Task.journal] at reached
  unfold Session.take Task.opening at *
  dsimp only
  split
  · rename_i waits
    rw [if_pos waits] at reached
    exact (reached.trans (logWithin _ _ rfl)).trans (frame rfl)
  · rename_i unwaited
    rw [if_neg unwaited] at reached
    exact reached.trans (check _ _)

theorem leaveBody (s : Session) (result : Option Result) :
    Tells S [] (s.leaveBody task result).stage.owed s (s.leaveBody task result) :=
  (reach s task (.returned result) fun _ h => by cases h).trans (frame rfl)

theorem construct (s : Session) :
    Tells S [] (s.construct S task).stage.owed s (s.construct S task) := by
  have counted : Tells S [] [] s { s with constructed := s.constructed + 1 } := frame rfl
  have made := (counted.trans (pass _ task (.constructed s.constructed)
    (fun _ h => by cases h) rfl)).trans (note _ (.created s.constructed s.clock))
  unfold Session.construct
  dsimp only
  split
  · exact made.trans (leaveBody _ _ _)
  · exact (made.trans (note _ _)).trans (frame rfl)

theorem beginShutdown (s : Session) : Tells S owed owed s s.beginShutdown := by
  unfold Session.beginShutdown
  split
  · exact signalStop s .closing
  · exact refl s

/-- A step of a body logs nothing of the worker's; the end of the body calls for its lines. -/
theorem bodyStep (s : Session) (n : Nat) (rest : List BodyStep) (step : BodyStep) :
    Tells S [] (s.bodyStep S task n rest step).stage.owed s (s.bodyStep S task n rest step) := by
  have next : ∀ {t : Session}, Tells S [] [] s t →
      Tells S [] [] s { t with stage := .running task n rest t.clock } :=
    fun tells => tells.trans (frame rfl)
  have noted : ∀ {t : Session} (word : String) (reply : Reply), Tells S [] [] s t →
      Tells S [] [] s (t.note (.stepped n word reply)) := fun _ _ tells => tells.trans (note _ _)
  have looked : Tells S [] [] s (s.look task) := pass s task _ (fun _ h => by cases h) rfl
  cases step with
  | progress update => exact next (emit _ _ _)
  | prevent => exact next (emit _ _ _)
  | flush => exact next (refl s)
  | work duration => exact frame rfl
  | poll => exact next (noted _ _ looked)
  | stopIfCancelled steps =>
    simp only [Session.bodyStep]
    split
    · exact looked.trans (leaveBody _ _ _)
    · exact next looked
  | leak => exact next (noted _ _ (frame rfl))
  | panic => exact leaveBody _ _ _
  | finish kind status log => exact leaveBody _ _ _
  | store step => exact next (noted _ _ (frame rfl))
  | command c => exact next (noted _ _ (perform s c))
  | shutdown => exact (noted "shutdown" .ok (beginShutdown s)).trans (frame rfl)
  | unreadable word fault => exact next (noted _ _ (refl s))

/-- What the worker owes of an operation is logged when it leaves it. -/
theorem leave (s : Session) (result : Option Result) :
    Tells S (task.closing result) [] s (s.leave task result) := by
  have ended : ∀ {t : Session} (status : Status) (signal : Signal),
      Tells S (task.closing result) [task.line (.operationComplete status)] s t →
        Tells S (task.closing result) [] s
          { (t.logWithin task (.operationComplete status)).emit task.id signal with
            stage := .idle, turn := .resumed } := fun _ _ tells =>
    ((tells.trans (logWithin _ _ rfl)).trans (emit _ _ _)).trans (frame rfl)
  cases result with
  | none => exact ended _ _ (logWithin s task rfl)
  | some result => exact ended _ _ (refl s)

theorem discard (s : Session) : Tells S [] [] s (s.discard task) := by
  have raised : Tells S [] [] s { s with tokens := s.tokens.cancel task.token } := frame rfl
  have reached := raised.trans (reach _ task .discarded fun _ h => by cases h)
  exact (reached.trans (line _ none rfl)).trans (emit _ _ _)

theorem windDown (s : Session) : Tells S [] [] s s.windDown := by
  have discards : Tells S [] [] s (s.inbox.waiting.foldl Session.discard s) :=
    List.foldlRecOn _ _ (motive := (Tells S [] [] s ·)) (refl s)
      fun u tells task _ => tells.trans (discard task u)
  exact discards.trans (frame rfl)

/-- Whatever the worker does, it logs what it owes. -/
theorem advance (h : s.advance? S = some t) : Tells S s.stage.owed t.stage.owed s t := by
  cases advance_cases h with
  | windDown idle => rw [idle]; exact windDown s
  | take idle => rw [idle]; exact take _ s _
  | @check task wake waits =>
    have turned : Tells S [] [] s { s with turn := .resumed } := frame rfl
    have nothing : s.stage.owed = [] := by rw [waits]; rfl
    rw [nothing]
    exact turned.trans (check _ _)
  | construct ready => rw [ready]; exact construct _ s
  | endBody runs => rw [runs]; exact leaveBody _ s _
  | bodyStep runs => rw [runs]; exact bodyStep _ s _ _ _
  | @leave task result leaves => rw [leaves]; exact leave task s result
  | finishShutdown =>
    have same : s.finishShutdown.stage = s.stage := (logShutdown_same { s with owner := .gone }).1
    rw [same]
    exact finishShutdown s

theorem next {limit : Option Nat} (h : s.next? S limit = some t) :
    Tells S s.stage.owed t.stage.owed s t := by
  cases next_cases h with
  | delivered =>
    rw [(Unmoved.deliverRound (S := S) s).stage]
    exact deliverRound s
  | woke => exact frame rfl
  | worked _ works => exact advance works

theorem run (limit : Option Nat) (s : Session) :
    Tells S s.stage.owed (s.run S limit).stage.owed s (s.run S limit) := by
  fun_induction Session.run S limit s with
  | case1 s stops => exact refl s
  | case2 s t h ih => exact (next h).trans ih

end Worker

theorem owed_of_rest (rest : s.AtRest) : s.stage.owed = [] := by
  cases hs : s.stage with
  | leaving task result => exact absurd hs (rest.gone task result)
  | _ => rfl

/-- Between two steps of the caller the worker owes nothing. -/
theorem ran (time : Nat) (rest : s.AtRest) : Tells S [] [] s (s.run S (some time)) := by
  have ran := run (S := S) (some time) s
  rwa [owed_of_rest rest, owed_of_rest (atRest_run S time s)] at ran

theorem step (rest : s.AtRest) (step : CallerStep) : Tells S [] [] s (s.step S step).1 := by
  cases step with
  | command c => exact perform s c
  | sleep duration =>
    simp only [Session.step]
    split
    · exact refl s
    · split
      · exact refl s
      · have turned : Tells S [] [] s { s with turn := .first } := frame rfl
        exact (turned.trans (ran _ (rest.congr rfl))).trans (frame rfl)
  | shutdown =>
    simp only [Session.step]
    split
    · exact refl s
    · split
      · have signalled : Tells S [] [] s { s.signalStop .gone with turn := .first } :=
          (signalStop s .gone).trans (frame rfl)
        have waited := signalled.trans (ran (s.clock + patience) (rest.congr rfl))
        unfold Session.shutdown
        dsimp only
        split
        · exact waited.trans (logShutdown _)
        · exact waited.trans (frame rfl)
      · exact refl s
  | lateProgress sink update => exact through s sink _
  | latePrevent sink => exact through s sink _
  | teardown => exact (aside s (h := .tornDown) ⟨rfl, rfl, rfl, rfl⟩).trans (frame rfl)
  | _ => exact frame rfl

end Tells

/-- After a script the worker has logged what was called for, and of all dispatches that were
accepted it was logged that they are queued. -/
theorem tells_runScript (S : Setup) (steps : List CallerStep) :
    Tells S [] [] start (start.runScript S steps) := by
  induction steps using List.reverseRecOn with
  | nil => exact .refl start
  | append_singleton steps step ih =>
    have last : start.runScript S (steps ++ [step]) =
        ((start.runScript S steps).step S step).1 := List.foldl_append
    rw [last]
    exact ih.trans (.step (keeps_runScript S steps).atRest step)

theorem journalIn_runScript (S : Setup) (steps : List CallerStep) :
    journalIn (start.runScript S steps).history = dueIn S (start.runScript S steps).history ∧
      queuedIn (start.runScript S steps).history =
        (acceptedIn (start.runScript S steps).history).map Slip.ticket := by
  obtain ⟨more, hmore, told, queued⟩ := (tells_runScript S steps).logged
  have whole : (start.runScript S steps).history = more := hmore
  rw [whole]
  exact ⟨by rwa [List.append_nil] at told, queued⟩

end Session

section Chapters

variable {S : Setup} {slip : Slip} {history : List Happening}

/-- What the worker is to log of a dispatch, by the milestones that it has reached. -/
def Slip.chapter (S : Setup) (history : List Happening) (slip : Slip) : List Line :=
  (milestonesIn history slip.id).flatMap (slip.task.journal S)

theorem Happening.due_of_message {h : Happening} {message : Message Command}
    (posts : h.message? = some message) : h.due S = [] := by
  cases h with
  | sent _ => rfl
  | lost _ => rfl
  | _ => cases posts

/-- What happens to a dispatch calls for the lines of its milestone. -/
theorem Place.Step.due {cancelled : Bool} {next : Nat} {p q : Place} {h : Happening}
    (step : p.Step S slip cancelled next h q) :
    h.due S = (h.milestone? slip.id).toList.flatMap (slip.task.journal S) := by
  cases step with
  | ran => rfl
  | stepped => rfl
  | emitted x posts unfinished =>
    rw [Happening.due_of_message posts, (Ledger.no_milestone_of_message posts).2.2]
    rfl
  | _ => simp [Happening.due, Happening.milestone?, Slip.id]

theorem Stand.Step.due {cancelled : Bool} {next : Nat} {late : Option Event} {st st' : Stand}
    {h : Happening} (step : st.Step S slip cancelled next late h st') :
    h.due S = (h.milestone? slip.id).toList.flatMap (slip.task.journal S) := by
  have message : ∀ {m : Message Command}, h.message? = some m →
      h.due S = (h.milestone? slip.id).toList.flatMap (slip.task.journal S) := fun posts => by
    rw [Happening.due_of_message posts, (Ledger.no_milestone_of_message posts).2.2]
    rfl
  cases step with
  | worked moves => exact moves.due
  | heard begun kept posts unfinished => exact message posts
  | finished fate posts => exact message posts
  | _ => simp [Happening.due, Happening.milestone?, Slip.id]

namespace Ledger

variable {l m : Ledger} {h : Happening}

theorem Quiet.due (quiet : l.Quiet h) : h.due S = [] := by
  cases h with
  | reached task milestone time =>
    have none := quiet.milestone task.id
    rw [Happening.milestone?, if_pos rfl] at none
    cases none
  | _ => rfl

/-- What is to be logged of a dispatch that stands there. -/
def chapter (S : Setup) (entry : Slip × Stand) : List Line :=
  (entry.2.milestones entry.1).flatMap (entry.1.task.journal S)

/-- What is to be logged of a history is to be logged of the dispatches one after another. -/
theorem Run.dueIn_roll (run : Run S .empty history l) :
    dueIn S history = l.roll.flatMap (chapter S) := by
  induction run with
  | nil => rfl
  | @snoc history h l m run step ih =>
    rw [dueIn_append, dueIn_singleton, ih]
    rcases step.roll_cases with ⟨hroll, quiet⟩ | ⟨slip, time, rfl, -, -, hroll⟩ |
      ⟨before, slip, st, st', after, hl, hm, behind, moved⟩
    · rw [hroll, quiet.due, List.append_nil]
    · rw [hroll, List.flatMap_append]
      rfl
    · -- Nothing is to be logged yet of those that wait behind.
      have waiting : after.flatMap (chapter S) = [] := by
        refine List.flatMap_eq_nil_iff.2 fun entry hentry => ?_
        rw [chapter, behind entry hentry]
        rfl
      have one : ∀ st : Stand, ((slip, st) :: after).flatMap (chapter S) = chapter S (slip, st) :=
        fun st => by rw [List.flatMap_cons, waiting, List.append_nil]
      rw [hl, hm, List.flatMap_append, List.flatMap_append, one, one, List.append_assoc, moved.due]
      simp only [chapter, moved.milestones, List.flatMap_append]

theorem Run.dueIn_accepted (run : Run S .empty history l) :
    dueIn S history = (acceptedIn history).flatMap (Slip.chapter S history) := by
  rw [run.dueIn_roll, ← run.accepted_of_empty, Ledger.accepted, List.flatMap_map]
  refine List.flatMap_congr fun entry hentry => ?_
  rw [chapter, Slip.chapter, run.milestones entry hentry]

/-- What is logged of a dispatch that has ended so. -/
theorem Run.chapter_of_settled (run : Run S .empty history l) {fate : Fate}
    (hsettled : (slip, fate) ∈ l.settled) :
    slip.chapter S history = match fate with
      | .dropped => [⟨none, .queuedDropped slip.id⟩]
      | .barred => slip.task.opening S ++ [slip.task.line .cancelledBeforeStart]
      | .ran _ result => slip.task.opening S ++ slip.task.closing result := by
  have looked : ∀ looks : List Bool,
      (looks.map Milestone.looked).flatMap (slip.task.journal S) = [] := fun looks => by
    rw [List.flatMap_map]
    exact List.flatMap_eq_nil_iff.2 fun _ _ => rfl
  rw [Slip.chapter, run.milestones _ (mem_roll_of_settled hsettled)]
  cases fate <;>
    simp [Stand.milestones, Stand.place?, Fate.place, Place.milestones, Task.journal, looked,
      Slip.id]

end Ledger

/-- Between two steps of the caller the worker has logged one chapter for every dispatch that was
accepted, in order of submission. -/
theorem Session.journal_in_chapters (S : Setup) (steps : List CallerStep) :
    journalIn (start.runScript S steps).history =
      (acceptedIn (start.runScript S steps).history).flatMap
        (Slip.chapter S (start.runScript S steps).history) := by
  obtain ⟨⟨l, run, -⟩, -⟩ := booked_runScript S steps
  rw [(journalIn_runScript S steps).1, run.dueIn_accepted]

end Chapters
end SerialDispatch
