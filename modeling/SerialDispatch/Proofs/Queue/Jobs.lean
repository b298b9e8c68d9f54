import Mathlib.Data.List.Induction
import SerialDispatch.Proofs.Queue.Partition
import SerialDispatch.Queue.Session

/-!
# What becomes of jobs

A session of jobs is a serial queue whose handler leaves traces and panics over the jobs that ask
for it, and over no others. So the traces tell where every accepted job is; main statement:
`QueueSession.accounts_runScript`.
-/
namespace SerialDispatch

namespace QueueHappening

def started? : QueueHappening → Option Job
  | .started job _ => some job
  | _ => none

def finished? : QueueHappening → Option Job
  | .finished job _ => some job
  | _ => none

def discarded? : QueueHappening → Option Job
  | .discarded job _ => some job
  | _ => none

end QueueHappening

/-- Whether the handler of jobs panics over a duty. -/
def Duty.panics (hooked : Bool) : Duty Job → Bool
  | .run job => job.panics
  | .discard job => hooked && job.panicsDiscarded
  | .shutdown => false

theorem Runnable.after_ofJobs (hooked : Bool) (duty : Duty Job) :
    ((ofJobs hooked).perform () duty).after = none ↔ duty.panics hooked = true := by
  cases duty with
  | run job => cases hp : job.panics <;> simp [perform, ofJobs, Duty.panics, hp]
  | discard job =>
    cases hp : hooked && job.panicsDiscarded <;> simp only [perform, ofJobs, Duty.panics, hp] <;>
      simp
  | shutdown => simp [perform, ofJobs, Duty.panics]

namespace SerialQueue

variable {hooked : Bool} {q t : SerialQueue Job Unit} {limit : Option Nat}

/-- The handler has turned to a duty. -/
def Begun (q : SerialQueue Job Unit) (duty : Duty Job) : Prop :=
  ∃ time, .began duty time ∈ q.past

/-- The handler panics over the jobs that ask for it, and over no others. -/
structure Faithful (hooked : Bool) (q : SerialQueue Job Unit) : Prop where
  broken : ∀ duty ∈ q.broken, duty.panics hooked = true ∧ q.Begun duty
  finished : ∀ job ∈ q.finished, job.panics = false
  busy : ∀ duty endsAt after, q.worker = .busy duty endsAt after →
    (after = none ↔ duty.panics hooked = true) ∧ q.Begun duty

namespace Faithful

/-- The queue has gone on, and what is new about it is as it should be. -/
theorem extend (faithful : Faithful hooked q) (more : List (QueueEvent Job))
    (past : t.past = q.past ++ more)
    (broken : ∀ duty ∈ brokenIn more, duty.panics hooked = true ∧ q.Begun duty)
    (finished : ∀ job ∈ finishedIn more, job.panics = false)
    (busy : ∀ duty endsAt after, t.worker = .busy duty endsAt after →
      q.worker = .busy duty endsAt after ∨
        (after = none ↔ duty.panics hooked = true) ∧ t.Begun duty) :
    Faithful hooked t := by
  have begun : ∀ duty, q.Begun duty → t.Begun duty := fun duty ⟨time, there⟩ =>
    ⟨time, past ▸ List.mem_append_left _ there⟩
  refine ⟨fun duty there => ?_, fun job there => ?_, fun duty endsAt after working => ?_⟩
  · rw [SerialQueue.broken, past, brokenIn_append, List.mem_append] at there
    exact (there.elim (faithful.broken duty) (broken duty)).imp_right (begun duty)
  · rw [SerialQueue.finished, past, finishedIn_append, List.mem_append] at there
    exact there.elim (faithful.finished job) (finished job)
  · exact (busy duty endsAt after working).elim
      (fun same => (faithful.busy duty endsAt after same).imp_right (begun duty)) id

/-- Nothing has happened that is about what the handler does. -/
theorem frame (faithful : Faithful hooked q) (past : t.past = q.past)
    (busy : ∀ duty endsAt after, t.worker = .busy duty endsAt after → t.worker = q.worker) :
    Faithful hooked t :=
  faithful.extend [] (past.trans (List.append_nil _).symm) (by simp [brokenIn])
    (by simp [finishedIn]) fun duty endsAt after working =>
      .inl ((busy duty endsAt after working).symm.trans working)

theorem begin (faithful : Faithful hooked q) (duty : Duty Job) :
    Faithful hooked (q.begin (.ofJobs hooked) duty) := by
  refine faithful.extend [.began duty q.clock] rfl (by simp) (by simp) ?_
  rintro _ _ _ ⟨⟩
  exact .inr ⟨Runnable.after_ofJobs hooked duty, _, List.mem_append_right _ List.mem_cons_self⟩

theorem take (faithful : Faithful hooked q) (duty : Duty Job) (rest : List Job) :
    Faithful hooked (q.take (.ofJobs hooked) duty rest) := by
  have taken : Faithful hooked { q with inbox := { q.inbox with waiting := rest } } :=
    faithful.frame rfl fun _ _ _ _ => rfl
  exact taken.begin duty

theorem conclude (faithful : Faithful hooked q) {duty : Duty Job} {endsAt : Nat}
    {after : Option Unit} (busy : q.worker = .busy duty endsAt after) (time : Nat) :
    Faithful hooked ({ q with clock := time }.conclude duty after) := by
  obtain ⟨panics, begun⟩ := faithful.busy duty endsAt after busy
  cases after with
  | none =>
    refine faithful.extend [.broke duty time] rfl ?_ (by simp) ?_
    · simpa using ⟨panics.1 rfl, begun⟩
    · intro _ _ _ dead
      cases dead
  | some handler =>
    refine faithful.extend [.ended duty time] rfl (by simp) ?_ ?_
    · intro job there
      cases duty with
      | run _ =>
        obtain rfl : job = _ := by simpa using there
        simpa [Duty.panics] using panics
      | _ => simp at there
    · intro _ _ _ working
      cases duty <;> cases working

theorem next (faithful : Faithful hooked q) (next : q.next? (.ofJobs hooked) limit = some t) :
    Faithful hooked t := by
  rcases next_cases next with ⟨task, rest, idle, -, -, rfl⟩ | ⟨-, -, rfl⟩ |
    ⟨task, rest, draining, -, rfl⟩ | ⟨-, -, rfl⟩ | ⟨duty, endsAt, after, time, busy, rfl⟩
  · exact faithful.take _ rest
  · exact faithful.frame rfl fun _ _ _ working => by cases working
  · exact faithful.take _ rest
  · exact faithful.begin _
  · exact faithful.conclude busy time

theorem run (faithful : Faithful hooked q) : Faithful hooked (q.run (.ofJobs hooked) limit) := by
  fun_induction SerialQueue.run (.ofJobs hooked) limit q with
  | case1 q _ => exact faithful
  | case2 q t next ih => exact ih (faithful.next next)

theorem stop (faithful : Faithful hooked q) : Faithful hooked (q.stop (.ofJobs hooked)).1 := by
  have told : Faithful hooked (q.letGo .stopped) := faithful.frame rfl fun _ _ _ _ => rfl
  have ran : Faithful hooked
      ((q.letGo .stopped).run (.ofJobs hooked) (some (q.clock + patience))) := told.run
  unfold SerialQueue.stop
  dsimp only
  split
  · exact ran
  · exact ran.extend [.log _] rfl (by simp) (by simp) fun _ _ _ working => .inl working
  · exact ran.frame rfl fun _ _ _ _ => rfl

theorem step (faithful : Faithful hooked q) (call : QueueCall Job) :
    Faithful hooked (q.step (.ofJobs hooked) call).1 := by
  cases call with
  | submit task =>
    simp only [SerialQueue.step]
    split
    · exact faithful
    · split
      · exact faithful.frame rfl fun _ _ _ _ => rfl
      · exact faithful
  | sleep duration =>
    simp only [SerialQueue.step]
    split
    · exact faithful
    · exact faithful.run.frame rfl fun _ _ _ _ => rfl
  | stop =>
    simp only [SerialQueue.step]
    split
    · exact faithful.stop
    · exact faithful
    · exact faithful
  | drop => exact faithful.frame rfl fun _ _ _ _ => rfl

end Faithful

theorem faithful_runScript (hooked : Bool) (calls : List (QueueCall Job)) :
    Faithful hooked ((start ()).runScript (.ofJobs hooked) calls) := by
  unfold runScript
  induction calls using List.reverseRecOn with
  | nil => exact ⟨fun _ nothing => (List.not_mem_nil nothing).elim,
      fun _ nothing => (List.not_mem_nil nothing).elim, fun _ _ _ working => by cases working⟩
  | append_singleton calls call ih =>
    rw [List.foldl_append]
    exact ih.step call

/-- A handler that no accepted job has panic does not panic before the end. -/
theorem Faithful.calm (faithful : Faithful hooked q) {js : List Job} (sound : Sound js q)
    (gentle : ∀ job ∈ js, job.panics = false ∧ (hooked && job.panicsDiscarded) = false) :
    q.Calm := by
  intro duty there
  obtain ⟨panics, time, begun⟩ := faithful.broken duty there
  obtain ⟨-, -, -, ruin⟩ := sound.fallen there
  cases duty with
  | run job =>
    obtain ⟨⟨rest, rfl⟩, -⟩ := ruin
    rw [Duty.panics, (gentle job (by simp)).1] at panics
    cases panics
  | discard job =>
    obtain ⟨⟨rest, rfl⟩, -⟩ := ruin
    have discarded : job ∈ discardedIn q.past := List.mem_filterMap.2 ⟨_, begun, rfl⟩
    rw [Duty.panics, (gentle job (by simp [discarded])).2] at panics
    cases panics
  | shutdown => rfl

end SerialQueue

namespace QueueSession

variable (hooked : Bool) (steps : List QueueStep)

theorem runScript_eq : (start hooked).runScript steps =
    ⟨hooked, (SerialQueue.start ()).runScript (.ofJobs hooked) (steps.map QueueStep.call)⟩ := by
  unfold runScript SerialQueue.runScript
  induction steps using List.reverseRecOn with
  | nil => rfl
  | append_singleton steps step ih =>
    rw [List.foldl_append, ih, List.map_append, List.foldl_append]
    rfl

/-- The jobs that are not refused, in order. -/
def accepted : List Job :=
  (SerialQueue.start ()).acceptedTasks (.ofJobs hooked) (steps.map QueueStep.call)

/-- A view of the history is one of what the queue has done. -/
theorem filterMap_history (s : QueueSession) {view : QueueHappening → Option Job}
    {of : QueueEvent Job → Option Job} (same : ∀ e, (e.trace? s.hooked).bind view = of e) :
    s.history.filterMap view = s.queue.past.filterMap of := by
  rw [history, List.filterMap_filterMap]
  exact congrArg (List.filterMap · s.queue.past) (funext same)

/-- What the traces of a session tell of the jobs accepted in it. -/
structure Accounts (js : List Job) (s : QueueSession) : Prop where
  contract : SerialQueue.Contract (.ofJobs s.hooked) js s.queue
  started : s.history.filterMap QueueHappening.started? = s.queue.started
  finished : s.history.filterMap QueueHappening.finished? = s.queue.finished
  discarded : s.hooked = true →
    s.history.filterMap QueueHappening.discarded? = s.queue.discarded
  /-- A job that panics never comes to its end. -/
  gentle : ∀ job ∈ s.history.filterMap QueueHappening.finished?, job.panics = false
  /-- If no job panics, the accepted ones are those that have started, and behind them those that
  were discarded and those that wait. -/
  partition : (∀ job ∈ js, job.panics = false ∧ (s.hooked && job.panicsDiscarded) = false) →
    js = s.history.filterMap QueueHappening.started? ++ (s.queue.discarded ++ s.queue.inbox.waiting)

theorem accounts_runScript :
    Accounts (accepted hooked steps) ((start hooked).runScript steps) := by
  rw [runScript_eq]
  have path := SerialQueue.path_runScript (.ofJobs hooked) (.start ()) (steps.map QueueStep.call)
  have faithful := SerialQueue.faithful_runScript hooked (steps.map QueueStep.call)
  generalize (SerialQueue.start ()).runScript (.ofJobs hooked) (steps.map QueueStep.call) = q
    at path faithful
  have sound := SerialQueue.sound_moment path
  have started : (QueueSession.mk hooked q).history.filterMap QueueHappening.started? = q.started :=
    filterMap_history _ fun e => by
      cases e with
      | log record => rfl
      | _ duty time => cases duty <;> cases hooked <;> rfl
  have finished : (QueueSession.mk hooked q).history.filterMap QueueHappening.finished? =
      q.finished := filterMap_history _ fun e => by
    cases e with
    | log record => rfl
    | _ duty time => cases duty <;> cases hooked <;> rfl
  refine ⟨sound.contract, started, finished, fun there => ?_, fun job there => ?_, fun gentle => ?_⟩
  · refine filterMap_history _ fun e => ?_
    cases e with
    | log record => rfl
    | _ duty time =>
      obtain rfl : hooked = true := there
      cases duty <;> rfl
  · exact faithful.finished job (finished ▸ there)
  · rw [started]
    exact sound.draining (faithful.calm sound gentle)

end QueueSession
end SerialDispatch
