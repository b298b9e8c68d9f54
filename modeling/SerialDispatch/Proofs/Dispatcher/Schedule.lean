import SerialDispatch.Proofs.Dispatcher.Evaluation
import SerialDispatch.Proofs.Dispatcher.Timetable

/-!
# The schedule of a dispatcher session

Whatever callers, callbacks and operations do, the worker keeps to its timetable, so the times in
the history of a session follow from those at which dispatches were submitted; main statement:
`Session.schedule_kept`.
-/
namespace SerialDispatch
namespace Session

/-- Between two sessions time stands still, and dispatches are submitted. -/
structure Arrives (s t : Session) : Prop where
  clock : t.clock = s.clock
  past : ∃ more, t.history = s.history ++ more ∧ (∀ h ∈ more, h.Passing s.clock) ∧
    t.inbox.waiting = s.inbox.waiting ++ (momentsIn more).map Moment.task

namespace Arrives

variable {S : Setup} {s t u : Session}

theorem frame (clock : t.clock = s.clock) (waiting : t.inbox.waiting = s.inbox.waiting)
    (trail : t.trail = s.trail) : Arrives s t := by
  refine ⟨clock, [], ?_, fun _ h => absurd h List.not_mem_nil,
    waiting.trans (List.append_nil _).symm⟩
  rw [history, trail, List.append_nil, history]

theorem refl (s : Session) : Arrives s s := frame rfl rfl rfl

theorem trans (first : Arrives s t) (second : Arrives t u) : Arrives s u := by
  obtain ⟨more, hmore, passing, waiting⟩ := first.past
  obtain ⟨later, hlater, passing', waiting'⟩ := second.past
  rw [first.clock] at passing'
  refine ⟨second.clock.trans first.clock, more ++ later, ?_, ?_, ?_⟩
  · rw [hlater, hmore, List.append_assoc]
  · intro h hmem
    rcases List.mem_append.1 hmem with early | late
    · exact passing h early
    · exact passing' h late
  · rw [waiting', waiting, momentsIn_append, List.map_append, List.append_assoc]

/-- Something is recorded that neither reaches a milestone nor is within the span of a dispatch. -/
theorem record (s : Session) {h : Happening} (unreached : h.moment? = none)
    (unspanned : h.entry? = none) : Arrives s (s.record h) := by
  refine ⟨rfl, [h], history_record s h, fun x hx => ?_, ?_⟩
  · rw [List.mem_singleton.1 hx]
    exact ⟨unspanned, fun m hm => by rw [unreached] at hm; cases hm⟩
  · simp [momentsIn, unreached, Session.record]

theorem log (s : Session) (event : LogEvent) : Arrives s (s.log event) := record s rfl rfl

theorem note (s : Session) (n : WorkerNote) : Arrives s (s.note n) := record s rfl rfl

theorem send (s : Session) (m : Message Command) : Arrives s (s.send m) := by
  unfold Session.send
  split
  · exact (frame rfl rfl rfl : Arrives s { s with mailbox := s.mailbox ++ [m] }).trans
      (record _ rfl rfl)
  · exact record s rfl rfl

theorem emit (s : Session) (id : DispatchId) (signal : Signal) : Arrives s (s.emit id signal) :=
  send s _

theorem signalStop (s : Session) (owner : Owner) : Arrives s (s.signalStop owner) :=
  (frame rfl rfl rfl : Arrives s { s with owner := owner, inbox := s.inbox.stop }).trans
    (record _ rfl rfl)

/-- A dispatch that is accepted goes behind all that wait. -/
theorem accept {callback : Nat} {task : Task} {inbox : Inbox Task}
    (takes : s.inbox.submit task = .ok inbox) :
    Arrives s ({ s with inbox := inbox }.reach task (.submitted callback)) := by
  obtain ⟨-, -, rfl⟩ := Inbox.submit_eq_ok.1 takes
  refine ⟨rfl, [.reached task (.submitted callback) s.clock], history_record _ _,
    fun h hmem => ?_, rfl⟩
  rw [List.mem_singleton.1 hmem]
  exact ⟨rfl, by rintro m ⟨⟩; exact ⟨rfl, rfl⟩⟩

theorem perform (S : Setup) (s : Session) (c : Command) : Arrives s (s.perform S c).1 := by
  refine lift_parts (Dealings.perform S s c) refl trans fun {u v} dealing => ?_
  cases dealing with
  | own same => exact frame (by rw [same]) (by rw [same]) (by rw [same])
  | sent m => exact send u m
  | accepted takes => exact (accept takes).trans (log _ _)
  | refused => exact log u _
  | handed handle => exact frame rfl rfl rfl
  | cancelled id => exact record u rfl rfl
  | requested id => exact log u _
  | stopped => exact signalStop u .gone

theorem deliverRound (S : Setup) (s : Session) : Arrives s (s.deliverRound S) := by
  have taken : ∀ (mailbox : List (Message Command)) (callbacks : Callbacks Command) (turn : Turn),
      Arrives s { s with mailbox := mailbox, callbacks := callbacks, turn := turn } :=
    fun _ _ _ => frame rfl rfl rfl
  refine (taken _ _ _).trans (lift_parts (carrying_deliverEvents S _ _) refl trans
    fun {u v} carries => ?_)
  cases carries with
  | unclaimed e => exact log u _
  | called callback e =>
    have called : Arrives u { u with callbacks := u.callbacks.after e } := frame rfl rfl rfl
    exact called.trans (record _ rfl rfl)
  | panicked => exact frame rfl rfl rfl
  | reacted callback c => exact (perform S u c).trans (record _ rfl rfl)

theorem beginShutdown (s : Session) : Arrives s s.beginShutdown := by
  unfold Session.beginShutdown
  split
  · exact signalStop s .closing
  · exact refl s

theorem through (s : Session) (sink : Nat) (signal : Signal) :
    Arrives s (s.through sink signal).1 := by
  unfold Session.through
  split
  · exact (record s rfl rfl).trans (emit _ _ _)
  · exact refl s

theorem logShutdown (s : Session) : Arrives s s.logShutdown :=
  logShutdown_induct (motive := (Arrives s ·)) (refl s) (fun u arrives => arrives.trans (log u _))
    fun u arrives => arrives.trans (log u _)

end Arrives

/-- A session keeps to the timetable. -/
def OnTime (S : Setup) (s : Session) : Prop :=
  Timely S s.history s.clock s.inbox.waiting (s.stage.pending S s.clock) s.stage

section OnTime

variable {S : Setup} {s t : Session} {task : Task} {pending : List LogRecord} {stage : Stage}

theorem timely_arrives
    (timely : Timely S s.history s.clock s.inbox.waiting pending stage) (arrives : Arrives s t) :
    Timely S t.history t.clock t.inbox.waiting pending stage := by
  obtain ⟨more, hmore, passing, waiting⟩ := arrives.past
  rw [hmore, waiting, arrives.clock]
  exact timely.passing passing

theorem OnTime.arrives (onTime : OnTime S s) (arrives : Arrives s t) (stage : t.stage = s.stage) :
    OnTime S t := by
  have timely := timely_arrives onTime arrives
  unfold OnTime
  rw [stage, arrives.clock]
  rwa [arrives.clock] at timely

/-- The worker logs what is next to be logged. -/
theorem timely_logWithin {event : LogEvent} (timely : Timely S s.history s.clock s.inbox.waiting
      (⟨s.clock, some task.span, event⟩ :: pending) stage) :
    Timely S (s.logWithin task event).history (s.logWithin task event).clock
      (s.logWithin task event).inbox.waiting pending stage := by
  rw [history_logWithin]
  exact timely.logged rfl

theorem onTime_check {wake : Nat}
    (timely : Timely S s.history s.clock s.inbox.waiting [] (.window task wake))
    (woken : wake ≤ s.clock) : OnTime S (s.check task) := by
  unfold check
  by_cases hc : s.tokens.isCancelled task.token = true
  · rw [if_pos hc]
    have barred := timely.bar woken
    rw [← history_reach] at barred
    have logged := timely_logWithin (s := s.reach task (.checked true)) barred
    have sent := timely_arrives logged (.emit _ task.id (.finished .cancelledBeforeStart))
    exact sent
  · rw [if_neg hc]
    have admitted := timely.letThrough woken
    rw [← history_reach] at admitted
    exact admitted

theorem OnTime.take {rest : List Task} (onTime : OnTime S s) (idle : s.stage = .idle)
    (first : s.inbox.waiting = task :: rest) : OnTime S (s.take S task rest) := by
  have taken : Timely S (s.history ++ [.reached task .taken s.clock]) s.clock rest
      (Moment.entries S ⟨task, .taken, s.clock⟩) (.window task (s.clock + S.window task)) := by
    unfold OnTime at onTime
    rw [idle, first] at onTime
    exact onTime.take
  generalize hu : ({ s with
    inbox := { s.inbox with waiting := rest }, turn := s.turn.worked }.reach task .taken) = u
  have hhistory : u.history = s.history ++ [.reached task .taken s.clock] := by
    rw [← hu, history_reach]
    rfl
  have hclock : u.clock = s.clock := by rw [← hu]; rfl
  have hwaiting : u.inbox.waiting = rest := by rw [← hu]; rfl
  rw [← hhistory, ← hclock, ← hwaiting] at taken
  unfold Session.take
  rw [hu]
  dsimp only
  by_cases hw : (task.waits && S.config.quiescence ≠ 0) = true
  · rw [if_pos hw]
    have window : Timer.due u.clock S.config.quiescence = u.clock + S.window task := by
      simp [Timer.due, Setup.window, (Bool.and_eq_true_iff.1 hw).1]
    simp only [Moment.entries, if_pos hw] at taken
    have logged := timely_logWithin taken
    rw [← window] at logged
    exact logged
  · rw [if_neg hw]
    have window : S.window task = 0 := by
      cases waits : task.waits with
      | false => simp [Setup.window, waits]
      | true =>
        have none : S.config.quiescence = 0 := by simpa [waits] using hw
        simp [Setup.window, none]
    simp only [Moment.entries, if_neg hw] at taken
    exact onTime_check taken (by rw [window]; exact Nat.le_refl _)

/-- The operation is over. -/
theorem onTime_leaveBody {n wake : Nat} {steps : List BodyStep}
    (timely : Timely S s.history s.clock s.inbox.waiting [] (.running task n steps wake))
    (woken : wake ≤ s.clock) (done : BodyStep.duration steps [] = 0) (result : Option Result) :
    OnTime S (s.leaveBody task result) := by
  have finished := timely.finish woken done result
  rw [← history_reach] at finished
  exact finished

theorem OnTime.construct (onTime : OnTime S s) (ready : s.stage = .ready task)
    (unlooked : looksIn s.history task.id = []) : OnTime S (s.construct S task) := by
  have made : Timely S (s.history ++ [.reached task (.constructed s.constructed) s.clock]) s.clock
      s.inbox.waiting [] (.running task s.constructed
        (if S.breaks s.constructed task.request.kind then [] else S.body task.request)
        s.clock) := by
    unfold OnTime at onTime
    rw [ready] at onTime
    exact onTime.construct unlooked
  have reached : ({ s with constructed := s.constructed + 1 }.reach task
      (.constructed s.constructed)).history =
        s.history ++ [.reached task (.constructed s.constructed) s.clock] := history_reach _ _ _
  rw [← reached] at made
  have created := timely_arrives made (.note _ (.created s.constructed s.clock))
  unfold Session.construct
  dsimp only
  by_cases hb : S.breaks s.constructed task.request.kind = true
  · rw [if_pos hb]
    rw [if_pos hb] at created
    exact onTime_leaveBody created (Nat.le_refl _) rfl none
  · rw [if_neg hb]
    rw [if_neg hb] at created
    have ran := timely_arrives created (.note _ (.ran s.constructed task.request task.input
      task.request.kind.isCancellable))
    exact ran

/-- What the operation does while time stands still. -/
theorem onTime_goOn {n wake : Nat} {steps later : List BodyStep}
    (timely : Timely S s.history s.clock s.inbox.waiting [] (.running task n steps wake))
    (woken : wake ≤ s.clock) (arrives : Arrives s t)
    (same : ∀ looks, BodyStep.duration steps looks = BodyStep.duration later looks) :
    OnTime S { t with stage := .running task n later t.clock } := by
  have next := timely_arrives (timely.goOn 0 woken fun looks => (same looks).trans
    (Nat.zero_add _).symm) arrives
  rw [Nat.add_zero, ← arrives.clock] at next
  exact next

theorem OnTime.bodyStep {n wake : Nat} {step : BodyStep} {rest : List BodyStep}
    (onTime : OnTime S s) (hs : s.stage = .running task n (step :: rest) wake)
    (woken : wake ≤ s.clock) : OnTime S (s.bodyStep S task n rest step) := by
  have timely : Timely S s.history s.clock s.inbox.waiting []
      (.running task n (step :: rest) wake) := by
    unfold OnTime at onTime
    rwa [hs] at onTime
  have looked : ∀ later : List BodyStep, (∀ looks,
      BodyStep.duration (step :: rest) (s.seesCancelled task :: looks) =
        BodyStep.duration later looks) →
      Timely S (s.look task).history s.clock s.inbox.waiting []
        (.running task n later wake) := by
    intro later same
    have next := timely.look same
    rw [← history_reach] at next
    exact next
  cases step with
  | progress update => exact onTime_goOn timely woken (.emit _ _ _) fun _ => rfl
  | prevent => exact onTime_goOn timely woken (.emit _ _ _) fun _ => rfl
  | flush => exact onTime_goOn timely woken (.refl s) fun _ => rfl
  | work duration => exact timely.goOn duration woken fun _ => rfl
  | poll =>
    have next := looked rest fun _ => rfl
    exact onTime_goOn (s := s.look task) next woken (.note _ _) fun _ => rfl
  | stopIfCancelled steps =>
    simp only [Session.bodyStep]
    cases hv : s.seesCancelled task with
    | true =>
      have next := looked [] fun looks => by simp [hv, BodyStep.duration]
      exact onTime_leaveBody (s := s.look task) next woken rfl _
    | false =>
      have next := looked rest fun looks => by simp [hv, BodyStep.duration]
      exact onTime_goOn (s := s.look task) next woken (.refl _) fun _ => rfl
  | leak =>
    have kept : Arrives s { s with sinks := s.sinks ++ [some task.id] } := .frame rfl rfl rfl
    exact onTime_goOn timely woken (kept.trans (.note _ _)) fun _ => rfl
  | panic => exact onTime_leaveBody timely woken rfl none
  | finish kind status log => exact onTime_leaveBody timely woken rfl _
  | store step =>
    have asked : Arrives s (s.ask step).1 := .frame rfl rfl rfl
    exact onTime_goOn timely woken (asked.trans (.note _ _)) fun _ => rfl
  | command command =>
    exact onTime_goOn timely woken ((Arrives.perform S s command).trans (.note _ _)) fun _ => rfl
  | shutdown =>
    have begun := (Arrives.beginShutdown s).trans
      (.note s.beginShutdown (.stepped n "shutdown" .ok))
    have now : s.beginShutdown.clock = s.clock := (Arrives.beginShutdown s).clock
    have same : ∀ looks, BodyStep.duration (.shutdown :: rest) looks =
        BodyStep.duration (.flush :: rest) looks := fun _ => rfl
    have next := onTime_goOn timely woken begun same
    simp only [Session.bodyStep]
    rw [← now]
    exact next
  | unreadable word fault => exact onTime_goOn timely woken (.note _ _) fun _ => rfl

theorem OnTime.leave {result : Option Result} (onTime : OnTime S s)
    (hs : s.stage = .leaving task result) : OnTime S (s.leave task result) := by
  have timely : Timely S s.history s.clock s.inbox.waiting
      (Moment.entries S ⟨task, .returned result, s.clock⟩) .idle := by
    unfold OnTime at onTime
    rw [hs] at onTime
    exact onTime.leave
  cases result with
  | some result =>
    have sent := timely_arrives (timely_logWithin timely)
      (.emit _ task.id (.finished (.completed result)))
    exact sent
  | none =>
    have panicked := timely_logWithin timely
    have sent := timely_arrives
      (timely_logWithin (s := s.logWithin task .operationPanicked) panicked)
      (.emit _ task.id (.finished (.completed (.ofPanic task.request.kind))))
    exact sent

theorem OnTime.windDown (onTime : OnTime S s) (idle : s.stage = .idle) :
    OnTime S s.windDown := by
  have discards : ∀ (tasks : List Task) {u : Session},
      Timely S u.history u.clock u.inbox.waiting [] .idle →
      Timely S (tasks.foldl Session.discard u).history (tasks.foldl Session.discard u).clock
        (tasks.foldl Session.discard u).inbox.waiting [] .idle := by
    intro tasks
    induction tasks with
    | nil => exact id
    | cons task rest ih =>
      intro u timely
      refine ih ?_
      have discarded := timely.discard task
      have reached : ({ u with tokens := u.tokens.cancel task.token }.reach task
          .discarded).history = u.history ++ [.reached task .discarded u.clock] :=
        history_reach _ _ _
      rw [← reached] at discarded
      have sent := timely_arrives discarded ((Arrives.log _ (.queuedDropped task.id)).trans
        (.emit _ task.id (.finished .cancelledBeforeStart)))
      exact sent
  have timely : Timely S s.history s.clock s.inbox.waiting [] .idle := by
    unfold OnTime at onTime
    rwa [idle] at onTime
  exact (discards s.inbox.waiting timely).close []

theorem OnTime.finishShutdown (onTime : OnTime S s) : OnTime S s.finishShutdown := by
  have gone : Arrives s { s with owner := .gone } := .frame rfl rfl rfl
  have done := (gone.trans (.logShutdown _)).trans (.note _ (.shutdownDone s.clock))
  exact onTime.arrives done (logShutdown_same { s with owner := .gone }).1

/-- The operation that is now to be constructed has not looked at anything. -/
theorem Booked.unlooked (booked : Booked S s) (ready : s.stage = .ready task) :
    looksIn s.history task.id = [] := by
  obtain ⟨⟨l, run, fits⟩, -⟩ := booked
  obtain ⟨slip, rfl, desk⟩ : ∃ slip : Slip, slip.task = task ∧ l.desk = some (slip, .admitted) := by
    have hworker := fits.worker
    simp only [workerSide, ready] at hworker
    exact hworker
  have hroll : (slip, Stand.at .admitted) ∈ l.roll := by simp [Ledger.roll, desk]
  have reached : milestonesIn s.history slip.task.id = _ := run.milestones _ hroll
  rw [looksIn, reached]
  rfl

theorem OnTime.advance (onTime : OnTime S s) (booked : Booked S s) (woken : s.stage.wake ≤ s.clock)
    (h : s.advance? S = some t) : OnTime S t := by
  cases advance_cases h with
  | windDown idle => exact onTime.windDown idle
  | take idle _ first => exact onTime.take idle first
  | check waits =>
    unfold OnTime at onTime
    rw [waits] at onTime woken
    exact onTime_check (s := { s with turn := .resumed }) onTime woken
  | construct ready => exact onTime.construct ready (booked.unlooked ready)
  | endBody runs =>
    unfold OnTime at onTime
    rw [runs] at onTime woken
    exact onTime_leaveBody onTime woken rfl _
  | bodyStep runs => exact onTime.bodyStep runs (by rwa [runs] at woken)
  | leave leaves => exact onTime.leave leaves
  | finishShutdown => exact onTime.finishShutdown

theorem OnTime.wake (onTime : OnTime S s) (early : s.clock < s.stage.wake) :
    OnTime S { s with clock := s.stage.wake } := by
  unfold OnTime at *
  cases hs : s.stage with
  | window task wake =>
    rw [hs] at onTime early
    exact onTime.wait (Nat.le_of_lt early) (Nat.le_refl _)
  | running task n rest wake =>
    rw [hs] at onTime early
    exact onTime.wait (Nat.le_of_lt early) (Nat.le_refl _)
  | _ => rw [hs] at early; cases early

theorem OnTime.next {limit : Option Nat} (onTime : OnTime S s) (booked : Booked S s)
    (h : s.next? S limit = some t) : OnTime S t := by
  cases next_cases h with
  | delivered => exact onTime.arrives (.deliverRound S s) (Unmoved.deliverRound s).stage
  | woke early => exact onTime.wake early
  | worked woken works => exact onTime.advance booked woken works

theorem OnTime.run (limit : Option Nat) (onTime : OnTime S s) (booked : Booked S s) :
    OnTime S (s.run S limit) := by
  fun_induction Session.run S limit s with
  | case1 s _ => exact onTime
  | case2 s t next ih => exact ih (onTime.next booked next) (booked.next next)

/-- When there is nothing to be done before a time, the worker is at rest until then. -/
theorem rests_of_next_none {time : Nat} (h : s.next? S (some time) = none) :
    s.stage.Rests s.inbox.waiting time := by
  obtain ⟨-, ⟨early, soon⟩ | ⟨-, nothing⟩⟩ := next_none_cases h
  · have late : time ≤ s.stage.wake := by simpa [Timer.isBefore] using soon
    cases hs : s.stage with
    | window task wake => rwa [hs] at late
    | running task n rest wake => rwa [hs] at late
    | _ => rw [hs] at early; cases early
  · cases going : s.stage.isOver with
    | false =>
      obtain ⟨idle, -, waiting⟩ := idle_of_advance_none going nothing
      rw [idle]
      exact waiting
    | true =>
      cases hs : s.stage with
      | ended => trivial
      | dead => trivial
      | _ => rw [hs] at going; cases going

/-- The worker does everything at once. -/
theorem clock_advance (h : s.advance? S = some t) : t.clock = s.clock := by
  cases turn_of_advance h with
  | routine did => exact did.clock
  | constructing task ready did => exact did.clock
  | commanded task n c rest => exact (Arrives.perform S s c).clock
  | finishing => exact (Arrives.logShutdown { s with owner := .gone }).clock

theorem clock_next_le {limit : Nat} (h : s.next? S (some limit) = some t)
    (early : s.clock ≤ limit) : t.clock ≤ limit := by
  cases next_cases h with
  | delivered => rwa [(Unmoved.deliverRound s).clock]
  | woke _ soon => exact Nat.le_of_lt (by simpa [Timer.isBefore] using soon)
  | worked _ works => rwa [clock_advance works]

theorem clock_run_le {limit : Nat} (early : s.clock ≤ limit) :
    (s.run S (some limit)).clock ≤ limit := by
  fun_induction Session.run S (some limit) s with
  | case1 s _ => exact early
  | case2 s t next ih => exact ih (clock_next_le next early)

/-- The worker is neither about to construct an operation nor to send a terminal signal. -/
structure AtRest (s : Session) : Prop where
  unready : ∀ task, s.stage ≠ .ready task
  gone : ∀ task result, s.stage ≠ .leaving task result

theorem AtRest.congr (rest : s.AtRest) (stage : t.stage = s.stage) : t.AtRest :=
  ⟨by rw [stage]; exact rest.unready, by rw [stage]; exact rest.gone⟩

theorem AtRest.pending_eq (rest : s.AtRest) (clock : Nat) : s.stage.pending S clock = [] := by
  cases hs : s.stage with
  | leaving task result => exact absurd hs (rest.gone task result)
  | _ => rfl

theorem AtRest.unmade_eq (rest : s.AtRest) (clock : Nat) : s.stage.unmade clock = [] := by
  cases hs : s.stage with
  | ready task => exact absurd hs (rest.unready task)
  | _ => rfl

theorem atRest_run (S : Setup) (time : Nat) (s : Session) : (s.run S (some time)).AtRest := by
  have rests := rests_of_next_none (run_next_none S (some time) s)
  constructor
  · intro task hs
    rw [hs] at rests
    exact rests
  · intro task result hs
    rw [hs] at rests
    exact rests

/-- What holds of a session between two steps of its caller. -/
structure Keeps (S : Setup) (s : Session) : Prop where
  booked : Booked S s
  onTime : OnTime S s
  atRest : s.AtRest

/-- A caller that waits for a time finds the session still on time. -/
theorem Keeps.ran (booked : Booked S s) (onTime : OnTime S s) {time : Nat}
    (later : s.clock ≤ time) :
    Keeps S (s.run S (some time)) ∧ Keeps S { s.run S (some time) with clock := time } := by
  have ran := booked.run (some time)
  have kept := onTime.run (some time) booked
  have atRest := atRest_run S time s
  have rests := rests_of_next_none (run_next_none S (some time) s)
  refine ⟨⟨ran, kept, atRest⟩, ran.frame rfl rfl id, ?_, atRest.congr rfl⟩
  have waited := Timely.wait kept (clock_run_le later) rests
  unfold OnTime
  rw [atRest.pending_eq] at waited
  dsimp only
  rw [atRest.pending_eq]
  exact waited

theorem Keeps.arrives (keeps : Keeps S s) (booked : Booked S t) (arrives : Arrives s t)
    (stage : t.stage = s.stage) : Keeps S t :=
  ⟨booked, keeps.onTime.arrives arrives stage, keeps.atRest.congr stage⟩

theorem stage_through (s : Session) (sink : Nat) (signal : Signal) :
    (s.through sink signal).1.stage = s.stage := by
  unfold through
  split
  · unfold emit send
    split <;> rfl
  · rfl

theorem Keeps.step (keeps : Keeps S s) (step : CallerStep) : Keeps S (s.step S step).1 := by
  have booked := keeps.booked.step step
  cases step with
  | command command =>
    exact keeps.arrives booked (.perform S s command) (Unmoved.perform s command).stage
  | sleep duration =>
    simp only [Session.step] at booked ⊢
    split
    · exact keeps
    · split
      · exact keeps
      · exact (Keeps.ran (s := { s with turn := .first }) (keeps.booked.frame rfl rfl id)
          (keeps.onTime.arrives (.frame rfl rfl rfl) rfl) (Timer.le_due _ _)).2
  | shutdown =>
    simp only [Session.step] at booked ⊢
    split
    · exact keeps
    · split
      · have signalled : Booked S { s.signalStop .gone with turn := .first } :=
          (keeps.booked.signalStop .gone (by decide)).frame rfl rfl id
        have onTime : OnTime S { s.signalStop .gone with turn := .first } :=
          keeps.onTime.arrives ((Arrives.signalStop s .gone).trans (.frame rfl rfl rfl)) rfl
        have ran := Keeps.ran signalled onTime (Nat.le_add_right s.clock patience)
        unfold Session.shutdown
        dsimp only
        split
        · exact ran.1.arrives ran.1.booked.logShutdown (.logShutdown _) (logShutdown_same _).1
        · exact ran.2
      · exact keeps
  | lateProgress sink update =>
    exact keeps.arrives booked (.through s sink _) (stage_through s sink _)
  | latePrevent sink => exact keeps.arrives booked (.through s sink _) (stage_through s sink _)
  | release sink => exact keeps.arrives booked (.frame rfl rfl rfl) rfl
  | store step => exact keeps.arrives booked (.frame rfl rfl rfl) rfl
  | teardown =>
    refine ⟨booked, ?_, ⟨(fun _ h => by cases h), fun _ _ h => by cases h⟩⟩
    have torn := timely_arrives keeps.onTime (.record s (h := .tornDown) rfl rfl)
    refine ⟨torn.punctual, torn.past, (fun h => by cases h), ?_, ?_, trivial⟩
    · have entries := torn.entries
      rw [keeps.atRest.pending_eq] at entries
      exact entries
    · have made := torn.made
      rw [keeps.atRest.unmade_eq] at made
      exact made
  | unreadable fault => exact keeps

theorem keeps_start (S : Setup) : Keeps S start := by
  refine ⟨booked_start, ⟨?_, ?_, fun _ => rfl, rfl, rfl, rfl, rfl, ?_⟩,
    ⟨(fun _ h => by cases h), fun _ _ h => by cases h⟩⟩
  · intro before task milestone time after split
    have length := congrArg List.length split
    simp [history, start] at length
  · intro m hm
    cases hm
  · intro sub free hsub
    cases hsub

theorem keeps_runScript (S : Setup) (steps : List CallerStep) :
    Keeps S (start.runScript S steps) := by
  unfold runScript
  induction steps using List.reverseRecOn with
  | nil => exact keeps_start S
  | append_singleton steps step ih =>
    rw [List.foldl_append]
    exact ih.step step

end OnTime

section Reading

variable {S : Setup} {s : Session}

/-- Behind the end of its operation a dispatch reaches no milestone. -/
theorem none_behind_returned {slip : Slip} {st : Stand} {result : Option Result}
    {before after : List Milestone}
    (h : st.milestones slip = before ++ .returned result :: after) : after = [] := by
  have unreturned : ∀ x : Execution, Milestone.returned result ∉
      Milestone.submitted slip.callback ::
        ([.taken, .checked false, .constructed x.number] ++ x.looks.map .looked) := by simp
  have mem : .returned result ∈ st.milestones slip := by simp [h]
  cases hp : st.place? with
  | none => simp [Stand.milestones, hp] at mem
  | some p =>
    cases p with
    | left x value =>
      have hleft : st.milestones slip = .submitted slip.callback ::
          ([.taken, .checked false, .constructed x.number] ++ x.looks.map .looked) ++
            [.returned value] := by
        simp [Stand.milestones, hp, Place.milestones]
      rcases List.eq_nil_or_concat after with rfl | ⟨rest, final, rfl⟩
      · rfl
      · rw [List.concat_eq_append] at h
        have whole : before ++ .returned result :: (rest ++ [final]) =
            (before ++ .returned result :: rest) ++ [final] := by simp
        have inner := List.append_inj_left' ((hleft.symm.trans h).trans whole) rfl
        exact absurd (by rw [inner]; simp) (unreturned x)
    | _ => simp [Stand.milestones, hp, Place.milestones] at mem

/-- An operation that is over does not look at anything any more. -/
theorem Booked.looks_of_returned (booked : Booked S s) {before after : List Happening} {task : Task}
    {result : Option Result} {time : Nat}
    (split : s.history = before ++ .reached task (.returned result) time :: after) :
    looksIn s.history task.id = looksIn before task.id := by
  obtain ⟨⟨l, run, -⟩, -⟩ := booked
  have upTo := run
  rw [split] at upTo
  obtain ⟨slip, rfl, accepted⟩ := upTo.due
  have hslip : slip ∈ l.accepted := by
    rw [run.accepted_of_empty, split, acceptedIn_append]
    exact List.mem_append_left _ accepted
  obtain ⟨⟨other, st⟩, hroll, hother⟩ := List.mem_map.1 hslip
  obtain rfl : other = slip := hother
  have whole : milestonesIn s.history other.id = st.milestones other := run.milestones _ hroll
  rw [split, milestonesIn_append] at whole
  have behind : milestonesIn (.reached other.task (.returned result) time :: after) other.id =
      .returned result :: milestonesIn after other.id :=
    List.filterMap_cons_some (if_pos rfl)
  rw [behind] at whole
  have none : milestonesIn after other.id = [] := none_behind_returned whole.symm
  simp only [looksIn, split, milestonesIn_append, List.filterMap_append]
  rw [show other.task.id = other.id from rfl, behind, none]
  exact List.append_nil _

theorem Booked.released (booked : Booked S s) (punctual : Punctually S s.history) {k : Nat}
    {m : Moment} (hm : (releasedIn s.history)[k]? = some m) : ∃ c : Moment,
    (checkedIn s.history)[k]? = some c ∧ c.task = m.task ∧
    (c.milestone = .checked true ∧ m.time = c.time ∨
      c.milestone = .checked false ∧ ∃ n, ⟨m.task, .constructed n, c.time⟩ ∈ momentsIn s.history ∧
        m.time = c.time + S.bodyTime n m.task.request (looksIn s.history m.task.id)) := by
  obtain ⟨before, after, split, hk, hp⟩ := split_moments hm
  have due := punctual _ _ _ _ _ split
  obtain ⟨task, milestone, time⟩ := m
  cases milestone with
  | checked cancelled =>
    obtain rfl : cancelled = true := hp
    obtain ⟨even, -⟩ := due
    refine ⟨⟨task, .checked true, time⟩, ?_, rfl, .inl ⟨rfl, rfl⟩⟩
    have here : (checkedIn before).length = k := even.trans hk
    rw [split, checkedIn_append, List.getElem?_append_right (Nat.le_of_eq here), here, Nat.sub_self]
    rfl
  | returned result =>
    obtain ⟨n, start, hc, made, htime⟩ := due
    rw [booked.looks_of_returned split]
    refine ⟨⟨task, .checked false, start⟩, ?_, rfl, .inr ⟨rfl, n, ?_, htime⟩⟩
    · have here : (releasedIn before).length = k := hk
      rw [split, checkedIn_append, ← here]
      exact getElem?_append_of_some hc
    · rw [split, momentsIn_append]
      exact List.mem_append_left _ made
  | _ => cases hp

/-- The worker was done with all dispatches before when it looks at a token. -/
theorem Booked.apart (booked : Booked S s) (punctual : Punctually S s.history) {k : Nat}
    {c : Moment} (hc : (checkedIn s.history)[k]? = some c) : ∀ j < k, ∃ r : Moment,
    (releasedIn s.history)[j]? = some r ∧ r.time ≤ c.time := by
  induction k generalizing c with
  | zero => exact fun j hj => absurd hj (Nat.not_lt_zero j)
  | succ k ih =>
    obtain ⟨t, ht, -, hchecked⟩ := punctual.checked hc
    obtain ⟨sub, free, -, -, hfree, htaken⟩ := punctual.taken ht
    obtain ⟨r, hr, hrtime⟩ := Option.map_eq_some_iff.1 hfree
    obtain ⟨d, hd, -, hreleased⟩ := booked.released punctual hr
    have late : d.time ≤ r.time := by
      rcases hreleased with ⟨-, h⟩ | ⟨-, n, -, h⟩ <;> omega
    intro j hj
    rcases Nat.lt_succ_iff_lt_or_eq.1 hj with earlier | rfl
    · obtain ⟨q, hq, hle⟩ := ih hd j earlier
      exact ⟨q, hq, by omega⟩
    · exact ⟨r, hr, by omega⟩

end Reading

/-- When the dispatches of a session are taken, when their tokens are looked at, when their
operations are constructed and when the worker is done with them. -/
structure Scheduled (S : Setup) (s : Session) : Prop where
  /-- A dispatch is taken when it has been submitted and the worker is done with the one before. -/
  taken : ∀ (k : Nat) (m : Moment), (takenIn s.history)[k]? = some m →
    ∃ (sub : Moment) (free : Nat), (submittedIn s.history)[k]? = some sub ∧ sub.task = m.task ∧
    freeAt (releasedIn s.history) k = some free ∧ m.time = max sub.time free
  /-- Until the worker is signalled to stop, a dispatch that has not been taken is not due. -/
  untaken : s.alive = true → s.history.any Happening.isStopping = false →
    ∀ (k : Nat) (sub : Moment) (free : Nat), (submittedIn s.history)[k]? = some sub →
    (takenIn s.history)[k]? = none →
    freeAt (releasedIn s.history) k = some free → s.clock ≤ max sub.time free
  /-- Its token is looked at when its window is over. -/
  checked : ∀ (k : Nat) (m : Moment), (checkedIn s.history)[k]? = some m → ∃ t : Moment,
    (takenIn s.history)[k]? = some t ∧ t.task = m.task ∧ m.time = t.time + S.window m.task
  unchecked : s.alive = true → ∀ (k : Nat) (t : Moment), (takenIn s.history)[k]? = some t →
    (checkedIn s.history)[k]? = none → s.clock ≤ t.time + S.window t.task
  /-- What is found is whether it has been cancelled by then. -/
  decided : ∀ before task cancelled time after,
    s.history = before ++ .reached task (.checked cancelled) time :: after →
      cancelled = decide (task.id ∈ cancelledIn before)
  /-- If it has not been, its operation is constructed at once, and no other operation is. -/
  constructed : (constructedIn s.history).map Moment.at =
    ((checkedIn s.history).filter fun m => m.milestone = .checked false).map Moment.at
  /-- The worker is done with a dispatch that was cancelled at once, and with any other when its
  body has taken its time. -/
  released : ∀ (k : Nat) (m : Moment), (releasedIn s.history)[k]? = some m → ∃ c : Moment,
    (checkedIn s.history)[k]? = some c ∧ c.task = m.task ∧
    (c.milestone = .checked true ∧ m.time = c.time ∨
      c.milestone = .checked false ∧ ∃ n, ⟨m.task, .constructed n, c.time⟩ ∈ momentsIn s.history ∧
        m.time = c.time + S.bodyTime n m.task.request (looksIn s.history m.task.id))
  unreleased : s.alive = true → ∀ (k : Nat) (c : Moment), (checkedIn s.history)[k]? = some c →
    (releasedIn s.history)[k]? = none → c.milestone = .checked false ∧
      ∃ n, ⟨c.task, .constructed n, c.time⟩ ∈ momentsIn s.history ∧
        ∀ looks, s.clock ≤ c.time +
          S.bodyTime n c.task.request (looksIn s.history c.task.id ++ looks)
  /-- It was done with all dispatches before when it looks at a token. -/
  apart : ∀ (k : Nat) (c : Moment), (checkedIn s.history)[k]? = some c → ∀ j < k, ∃ r : Moment,
    (releasedIn s.history)[j]? = some r ∧ r.time ≤ c.time
  /-- What it logs of a dispatch is logged at these times. -/
  entries : entriesIn s.history = (momentsIn s.history).flatMap (Moment.entries S)

/-- Every session keeps to its schedule. -/
theorem schedule_kept (S : Setup) (steps : List CallerStep) :
    Scheduled S (start.runScript S steps) := by
  obtain ⟨booked, onTime, atRest⟩ := keeps_runScript S steps
  generalize start.runScript S steps = s at *
  have punctual : Punctually S s.history := onTime.punctual
  have there : s.alive = true → s.stage ≠ .dead := by
    intro halive hdead
    have gone := (booked.2 hdead).2
    rw [halive] at gone
    cases gone
  refine ⟨fun k m => punctual.taken, fun halive going k sub free => ?_,
    fun k m => punctual.checked, fun halive k t => Timely.unchecked onTime (there halive),
    fun before task cancelled time after split => ?_, ?_, fun k m => booked.released punctual,
    fun halive k c => Timely.unreleased onTime (there halive) atRest.unready,
    fun k c => booked.apart punctual, ?_⟩
  · refine Timely.untaken onTime ?_
    obtain ⟨⟨l, run, fits⟩, -⟩ := booked
    have stopping : s.inbox.stopping = false := fits.stopping.symm.trans (run.stopping.trans going)
    cases hs : s.stage with
    | ended => rw [show s.inbox.stopping = true from fits.ended hs] at stopping; cases stopping
    | dead => exact absurd hs (there halive)
    | _ => rfl
  · obtain ⟨⟨l, run, -⟩, -⟩ := booked
    rw [split] at run
    obtain ⟨slip, rfl, -, looked⟩ := run.due
    exact looked
  · have made := onTime.made
    rwa [atRest.unmade_eq, List.append_nil] at made
  · have entries := onTime.entries
    rwa [atRest.pending_eq, List.append_nil] at entries

/-- A window that is to last longer than any wait does is over before. -/
theorem not_always_awaited : ¬ ∀ (S : Setup) (steps : List CallerStep) (k : Nat) (m : Moment),
    (checkedIn (start.runScript S steps).history)[k]? = some m → ∃ t : Moment,
      (takenIn (start.runScript S steps).history)[k]? = some t ∧ t.task = m.task ∧
        m.time = t.time + if m.task.waits then S.config.quiescence else 0 := by
  intro always
  let S := { Setup.sample [] with config := { quiescence := Timer.longest + 500 } }
  let steps : List CallerStep := [.begin .backup .needed, .sleep 5, .sleep Timer.longest]
  let task : Task := ⟨1, ⟨.backup, ⟨[]⟩⟩, .default, 0, true⟩
  have found : (start.scriptWithin S 60 steps).map
      (fun s => (takenIn s.history, checkedIn s.history)) =
        some ([⟨task, .taken, 0⟩], [⟨task, .checked false, Timer.longest⟩]) := by decide +kernel
  have done := runScript_of_within 60 _ found
  simp only [Prod.mk.injEq] at done
  obtain ⟨taken, checked⟩ := done
  obtain ⟨t, ht, -, htime⟩ := always _ _ 0 _ (by rw [checked]; rfl)
  rw [taken] at ht
  cases ht
  revert htime
  decide

end Session
end SerialDispatch
