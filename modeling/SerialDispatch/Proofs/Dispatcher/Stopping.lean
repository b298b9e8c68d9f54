import SerialDispatch.Proofs.Dispatcher.Caller
import SerialDispatch.Proofs.Dispatcher.Cancellation

/-!
# What a shutdown leaves to be started

The worker looks for the signal to stop between two dispatches. A dispatch that still waits when the
signal is given is therefore never started. One that the worker has taken goes its way: while its
window lasts nothing of its operation exists, and still the operation is constructed when the window
is over, unless the dispatch was cancelled by then; main statement: `Session.stopping_decided`.
-/
namespace SerialDispatch

/-- What becomes of a dispatch of a session whose worker was signalled to stop when `before` was all
that had happened. -/
structure Slip.Stopped (S : Setup) (s : Session) (before : List Happening) (slip : Slip) :
    Prop where
  earlier : slip ∈ acceptedIn before
  /-- What waits is never taken. -/
  untaken : .taken ∉ milestonesIn before slip.id → .taken ∉ milestonesIn s.history slip.id ∧
    ∀ n, .constructed n ∉ milestonesIn s.history slip.id
  /-- What has been taken is constructed unless it was cancelled before its token was looked at. -/
  constructed_iff : s.stage = .ended → ((∃ n, .constructed n ∈ milestonesIn s.history slip.id) ↔
    .taken ∈ milestonesIn before slip.id ∧ ¬ slip.Preempted s.history)
  completed : s.stage = .ended → (∃ n, .constructed n ∈ milestonesIn s.history slip.id) →
    ∃ x result, slip.Completed S s.history x result
  unstarted : s.stage = .ended → (∀ n, .constructed n ∉ milestonesIn s.history slip.id) →
    slip.Unstarted s.history ∧ s.tokens.isCancelled slip.task.token = true

/-- What has happened before the signal to stop lies before it. -/
theorem milestone_before {history before after : List Happening} {id : DispatchId}
    {milestone : Milestone} (signalled : history = before ++ .stopping :: after)
    (reached : milestone ∈ milestonesIn history id)
    (early : ∀ before task time after, history = before ++ .reached task milestone time :: after →
      before.any Happening.isStopping = false) : milestone ∈ milestonesIn before id := by
  obtain ⟨earlier, task, time, later, hsplit, hid⟩ := mem_milestonesIn.1 reached
  have hearly := early _ _ _ _ hsplit
  rw [hsplit] at signalled
  rcases List.append_eq_append_iff.1 signalled with
    ⟨rest, hbefore, hlater⟩ | ⟨rest, hearlier, hlater⟩
  · cases rest with
    | nil => cases hlater
    | cons h rest =>
      cases hlater
      exact mem_milestonesIn.2 ⟨earlier, task, time, rest, hbefore, hid⟩
  · cases rest with
    | nil => cases hlater
    | cons h rest =>
      cases hlater
      simp [hearlier, Happening.isStopping] at hearly

theorem Stand.taken_of_constructed {slip : Slip} {st : Stand} {n : Nat}
    (made : .constructed n ∈ st.milestones slip) : .taken ∈ st.milestones slip := by
  cases st with
  | waiting => simp [Stand.milestones, Stand.place?] at made
  | «at» p => cases p <;> simp_all [Stand.milestones, Stand.place?, Place.milestones]
  | settled fate =>
    cases fate <;> simp_all [Stand.milestones, Stand.place?, Fate.place, Place.milestones]

namespace Ledger

variable {S : Setup} {l : Ledger} {history before after : List Happening} {slip : Slip}

theorem Run.entry (run : Run S .empty history l) (hslip : slip ∈ acceptedIn history) :
    ∃ st, (slip, st) ∈ l.roll := by
  rw [← run.accepted_of_empty] at hslip
  obtain ⟨entry, hentry, rfl⟩ := List.mem_map.1 hslip
  exact ⟨entry.2, hentry⟩

/-- All dispatches were accepted before the signal to stop. -/
theorem Run.accepted_before (run : Run S .empty history l)
    (signalled : history = before ++ .stopping :: after) (hslip : slip ∈ acceptedIn history) :
    slip ∈ acceptedIn before := by
  obtain ⟨st, hroll⟩ := run.entry hslip
  have submitted : .submitted slip.callback ∈ milestonesIn history slip.id := by
    rw [run.milestones _ hroll]
    exact List.mem_cons_self
  have hbefore := milestone_before signalled submitted fun earlier task time later hsplit => by
    rw [hsplit] at run
    obtain ⟨_, -, -, early, -⟩ := run.due
    exact early
  obtain ⟨earlier, task, time, later, hsplit, hid⟩ := mem_milestonesIn.1 hbefore
  have hmem : ⟨task, slip.callback⟩ ∈ acceptedIn before := by
    rw [hsplit, acceptedIn_append]
    exact List.mem_append_right _ List.mem_cons_self
  have hwhole : (⟨task, slip.callback⟩ : Slip) ∈ acceptedIn history := by
    rw [signalled, acceptedIn_append]
    exact List.mem_append_left _ hmem
  rw [run.eq_of_id hslip hwhole hid.symm]
  exact hmem

/-- Nothing is taken once the signal to stop is given. -/
theorem Run.taken_before (run : Run S .empty history l)
    (signalled : history = before ++ .stopping :: after) {id : DispatchId}
    (taken : .taken ∈ milestonesIn history id) : .taken ∈ milestonesIn before id := by
  refine milestone_before signalled taken fun earlier task time later hsplit => ?_
  rw [hsplit] at run
  obtain ⟨_, -, -, early⟩ := run.due
  exact early

theorem Run.taken_of_constructed (run : Run S .empty history l) (hslip : slip ∈ acceptedIn history)
    {n : Nat} (made : .constructed n ∈ milestonesIn history slip.id) :
    .taken ∈ milestonesIn history slip.id := by
  obtain ⟨st, hroll⟩ := run.entry hslip
  rw [run.milestones _ hroll] at made ⊢
  exact Stand.taken_of_constructed made

end Ledger

/-- The token of a dispatch that was preempted is raised. -/
theorem Fits.raised {S : Setup} {w : WorkerSide} {l : Ledger} {history : List Happening}
    {slip : Slip} (fits : Fits S w l) (run : Ledger.Run S .empty history l) {fate : Fate}
    (hsettled : (slip, fate) ∈ l.settled) (preempted : slip.Preempted history) :
    w.tokens.isCancelled slip.task.token = true := by
  have hroll := Ledger.mem_roll_of_settled hsettled
  have hslip : slip ∈ l.accepted := List.mem_map_of_mem hroll
  rw [fits.known.flags slip hslip, Bool.or_eq_true, decide_eq_true_eq, decide_eq_true_eq]
  cases preempted with
  | cancelled looked inTime =>
    have hcancelled : l.cancelled = cancelledIn history := run.cancelled
    rw [hcancelled, looked, cancelledIn_append]
    exact .inl (List.mem_append_left _ inTime)
  | discarded dropped =>
    rw [run.milestones _ hroll] at dropped
    cases fate with
    | dropped => exact .inr (List.mem_map.2 ⟨_, List.mem_filter.2 ⟨hroll, rfl⟩, rfl⟩)
    | barred => simp [Stand.milestones, Stand.place?, Fate.place, Place.milestones] at dropped
    | ran x result => simp [Stand.milestones, Stand.place?, Fate.place, Place.milestones] at dropped

namespace Session

/-- What a signal to stop decides in a session that has come to `s`. -/
structure Stopping (S : Setup) (s : Session) : Prop where
  /-- The signal may have been given at any moment, by whomever. -/
  decided : ∀ before after, s.history = before ++ .stopping :: after →
    ∀ slip ∈ acceptedIn s.history, slip.Stopped S s before
  /-- A shutdown gives it at once. -/
  signals : s.alive = true → s.owner = .held →
    ∃ after, (s.step S .shutdown).1.history = s.history ++ .stopping :: after
  ends : (s.step S .shutdown).2 = .stopped → (s.step S .shutdown).1.stage = .ended

/-- What becomes of the dispatches of a session whose worker is signalled to stop at `before`. -/
theorem Booked.stopped {S : Setup} {s : Session} (booked : Booked S s)
    {before after : List Happening} (signalled : s.history = before ++ .stopping :: after)
    {slip : Slip} (accepted : slip ∈ acceptedIn s.history) : slip.Stopped S s before := by
  obtain ⟨⟨l, run, fits⟩, -⟩ := booked
  have settled : s.stage = .ended → ∃ fate, (slip, fate) ∈ l.settled := by
    intro ended
    obtain ⟨free, done, -⟩ := fits.done ended
    exact run.settled_of_done free done accepted
  refine ⟨run.accepted_before signalled accepted, fun untaken => ?_, fun ended => ?_,
    fun ended made => ?_, fun ended unmade => ?_⟩
  · have never : .taken ∉ milestonesIn s.history slip.id :=
      fun taken => untaken (run.taken_before signalled taken)
    exact ⟨never, fun n made => never (run.taken_of_constructed accepted made)⟩
  · obtain ⟨fate, hsettled⟩ := settled ended
    have hiff := run.constructed_iff hsettled
    refine ⟨fun made => ⟨?_, hiff.1 made⟩, fun h => hiff.2 h.2⟩
    obtain ⟨n, made⟩ := made
    exact run.taken_before signalled (run.taken_of_constructed accepted made)
  · obtain ⟨fate, hsettled⟩ := settled ended
    have not_preempted := (run.constructed_iff hsettled).1 made
    obtain ⟨x, result, completed, -⟩ := (run.decided hsettled).started not_preempted
    exact ⟨x, result, completed⟩
  · obtain ⟨fate, hsettled⟩ := settled ended
    have preempted : slip.Preempted s.history := by
      by_contra not_preempted
      obtain ⟨n, made⟩ := (run.constructed_iff hsettled).2 not_preempted
      exact unmade n made
    exact ⟨(run.decided hsettled).preempted preempted, fits.raised run hsettled preempted⟩

/-- What a signal to stop leaves to be started, in every session and at every moment. -/
theorem stopping_decided (S : Setup) (steps : List CallerStep) :
    Stopping S (start.runScript S steps) := by
  have booked := booked_runScript S steps
  refine ⟨fun before after signalled slip accepted => booked.stopped signalled accepted,
    fun there held => shutdown_signals S there held,
    fun returned => ended_of_stopped booked returned⟩

/-- A dispatch whose window lasts when the worker is signalled to stop is constructed all the
same. -/
theorem not_always_unstarted : ¬ ∀ (S : Setup) (steps : List CallerStep)
    (before after : List Happening),
    (start.runScript S steps).history = before ++ .stopping :: after →
      ∀ slip ∈ acceptedIn before, (∀ n, .constructed n ∉ milestonesIn before slip.id) →
        ∀ n, .constructed n ∉ milestonesIn (start.runScript S steps).history slip.id := by
  intro always
  have early := runScript_of_within (S := .sample []) 60
    (fun s => (s.alive, s.owner, acceptedIn s.history, milestonesIn s.history 1))
    (a := (true, .held, [⟨⟨1, ⟨.backup, ⟨[]⟩⟩, .default, 0, true⟩, 0⟩], [.submitted 0, .taken]))
    (show (start.scriptWithin (.sample []) 60 [.begin .backup .needed, .sleep 50]).map _ = _
      from rfl)
  have done := runScript_of_within (S := .sample []) 60 (fun s => milestonesIn s.history 1)
    (a := [.submitted 0, .taken, .checked false, .constructed 0, .looked false,
      .returned (some ⟨.backup, .ok, []⟩)])
    (show (start.scriptWithin (.sample []) 60
      [.begin .backup .needed, .sleep 50, .shutdown]).map _ = _ from rfl)
  have decided := always (.sample []) [.begin .backup .needed, .sleep 50, .shutdown]
  have split : start.runScript (.sample []) [.begin .backup .needed, .sleep 50, .shutdown] =
      ((start.runScript (.sample []) [.begin .backup .needed, .sleep 50]).step
        (.sample []) .shutdown).1 := rfl
  simp only [Prod.mk.injEq] at early
  obtain ⟨there, held, accepted, unmade⟩ := early
  obtain ⟨after, signalled⟩ := shutdown_signals (.sample []) there held
  rw [← split] at signalled
  refine decided _ after signalled ⟨⟨1, ⟨.backup, ⟨[]⟩⟩, .default, 0, true⟩, 0⟩ ?_
    (fun n made => ?_) 0 ?_
  · rw [accepted]
    exact List.mem_cons_self
  · have made : .constructed n ∈ milestonesIn _ 1 := made
    rw [unmade] at made
    simp at made
  · show .constructed 0 ∈ milestonesIn _ 1
    rw [done]
    simp

end Session
end SerialDispatch
