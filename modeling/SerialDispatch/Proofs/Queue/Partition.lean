import SerialDispatch.Proofs.Queue.Account

/-!
# A serial queue loses, repeats and reorders nothing

`SerialQueue.Contract` collects what callers may rely on, at any moment of any queue with any
handler: where the accepted tasks are, that one task runs at a time, what a stop means for the tasks
that wait, and what is left of a queue whose handler panicked. Main statement:
`contract_of_every_moment`.
-/
namespace SerialDispatch.SerialQueue

variable {τ σ : Type} {R : Runnable τ σ} {q t : SerialQueue τ σ} {js ks accepted : List τ}

section After

/-- A queue that was told to stop takes nothing in, and no further task begins its run. -/
theorem Move.started_of_stopping (move : Move q accepted t)
    (stopping : q.inbox.stopping = true) :
    accepted = [] ∧ t.inbox.stopping = true ∧ t.started = q.started := by
  cases move with
  | submit _ taken =>
    have going := (Inbox.submit_eq_ok.1 taken).1
    rw [stopping] at going
    cases going
  | work next =>
    refine ⟨rfl, ?_⟩
    rcases next_cases next with ⟨task, rest, -, going, -, -⟩ | ⟨-, -, rfl⟩ |
      ⟨task, rest, -, -, rfl⟩ | ⟨-, -, rfl⟩ | ⟨duty, endsAt, after, time, -, rfl⟩
    · rw [stopping] at going
      cases going
    · exact ⟨stopping, rfl⟩
    · exact ⟨stopping, by simp [started, take, begin, record]⟩
    · exact ⟨stopping, by simp [started, begin, record]⟩
    · cases after with
      | none => exact ⟨stopping, by simp [started, conclude, record, die]⟩
      | some handler => exact ⟨stopping, by simp [started, conclude, record]⟩
  | wait time => exact ⟨rfl, stopping, rfl⟩
  | letGo away => exact ⟨rfl, rfl, rfl⟩
  | report log gone => exact ⟨rfl, stopping, by simp [started, record]⟩

theorem Path.started_of_stopping (path : Path q ks t) (stopping : q.inbox.stopping = true) :
    ks = [] ∧ t.inbox.stopping = true ∧ t.started = q.started := by
  induction path with
  | here => exact ⟨rfl, stopping, rfl⟩
  | move _ last ih =>
    obtain ⟨hks, hs, hstarted⟩ := ih
    obtain ⟨hlast, hs', hstarted'⟩ := last.started_of_stopping hs
    exact ⟨by rw [hks, hlast]; rfl, hs', hstarted'.trans hstarted⟩

/-- Once its worker is over a queue takes nothing in and does nothing but log. -/
theorem Sound.untouched_move (sound : Sound js q) (move : Move q accepted t)
    (isOver : q.worker.isOver = true) :
    accepted = [] ∧ t.worker = q.worker ∧ ∃ logs : List LogRecord,
      t.past = q.past ++ logs.map .log := by
  cases move with
  | submit _ taken =>
    have closed := sound.closed
    rw [(Inbox.submit_eq_ok.1 taken).2.1, QueueWorker.not_working_of_over isOver] at closed
    cases closed
  | work next =>
    rcases next_cases next with ⟨_, _, hw, -⟩ | ⟨hw, -⟩ | ⟨_, _, hw, -⟩ | ⟨hw, -⟩ |
      ⟨_, _, _, _, hw, -⟩
    all_goals
      rw [hw] at isOver
      cases isOver
  | wait time => exact ⟨rfl, rfl, [], by simp⟩
  | letGo away => exact ⟨rfl, rfl, [], by simp [SerialQueue.letGo]⟩
  | report log gone => exact ⟨rfl, rfl, [log], rfl⟩

theorem Sound.untouched (sound : Sound js q) (path : Path q ks t)
    (isOver : q.worker.isOver = true) :
    ks = [] ∧ t.worker = q.worker ∧ ∃ logs : List LogRecord,
      t.past = q.past ++ logs.map .log := by
  induction path with
  | here => exact ⟨rfl, rfl, [], by simp⟩
  | move path last ih =>
    obtain ⟨hks, hw, logs, hpast⟩ := ih
    have later := isOver
    rw [← hw] at later
    obtain ⟨hlast, hw', more, hpast'⟩ := (sound.path path).untouched_move last later
    refine ⟨by rw [hks, hlast]; rfl, hw'.trans hw, logs ++ more, ?_⟩
    rw [hpast', hpast, List.append_assoc, List.map_append]

theorem run_of_over (isOver : q.worker.isOver = true) (limit : Option Nat) :
    q.run R limit = q := by
  have hnone : q.next? R limit = none := by
    unfold next?
    cases hw : q.worker <;> simp_all [QueueWorker.isOver]
  rw [run]
  split
  · rfl
  · rename_i t hnext
    rw [hnone] at hnext
    cases hnext

/-- Nothing that the worker does changes what is left on the caller's side. -/
theorem owner_run (limit : Option Nat) : (q.run R limit).owner = q.owner := by
  fun_induction run R limit q with
  | case1 q _ => rfl
  | case2 q t next ih =>
    rw [ih]
    rcases next_cases next with ⟨task, rest, -, -, -, rfl⟩ | ⟨-, -, rfl⟩ | ⟨task, rest, -, -, rfl⟩ |
      ⟨-, -, rfl⟩ | ⟨duty, endsAt, after, time, -, rfl⟩
    · rfl
    · rfl
    · rfl
    · rfl
    · cases after with
      | none => rfl
      | some handler => rfl

theorem owner_stop : (q.stop R).1.owner = .stopped := by
  have ran : ((q.letGo .stopped).run R (some (q.clock + patience))).owner = .stopped := owner_run _
  unfold stop
  generalize (q.letGo .stopped).run R (some (q.clock + patience)) = t at ran ⊢
  cases hw : t.worker with
  | ended => simpa only [hw] using ran
  | dead => simpa only [hw, record] using ran
  | idle => simpa only [hw] using ran
  | draining => simpa only [hw] using ran
  | busy duty endsAt after => simpa only [hw] using ran

/-- A queue that is stopped stays so until the caller lets go of it. -/
theorem owner_step (stopped : q.owner = .stopped) {call : QueueCall τ} (kept : call ≠ .drop) :
    (q.step R call).1.owner = .stopped := by
  cases call with
  | submit task =>
    cases hi : q.inbox.submit task with
    | ok inbox => simp [step, stopped, hi]
    | error e => simp [step, stopped, hi]
  | sleep duration =>
    by_cases hd : duration = 0
    · simp [step, hd, stopped]
    · simpa [step, hd] using (owner_run _).trans stopped
  | stop => simp only [step, stopped]
  | drop => exact absurd rfl kept

/-- A stop that returns has seen the worker over. -/
theorem over_of_stopped (running : q.owner = .running) (h : q.step R .stop = (t, .stopped)) :
    t.worker.isOver = true := by
  simp only [step, running] at h
  unfold stop at h
  generalize (q.letGo .stopped).run R (some (q.clock + patience)) = ran at h
  cases hw : ran.worker with
  | ended =>
    simp only [hw, Prod.mk.injEq] at h
    rw [← h.1, hw]
    rfl
  | dead =>
    simp only [hw, Prod.mk.injEq] at h
    rw [← h.1]
    show ran.worker.isOver = true
    rw [hw]
    rfl
  | idle => simp [hw] at h
  | draining => simp [hw] at h
  | busy duty endsAt after => simp [hw] at h

/-- A stop finds the worker over that was over before. -/
theorem stopped_of_over (isOver : q.worker.isOver = true) (there : q.owner ≠ .gone) :
    (q.step R .stop).2 = .stopped := by
  cases ho : q.owner with
  | running =>
    have later : (q.letGo .stopped).worker.isOver = true := isOver
    simp only [step, ho, stop, run_of_over later]
    cases hw : q.worker <;> simp_all [QueueWorker.isOver, SerialQueue.letGo]
  | stopped => simp only [step, ho]
  | gone => exact absurd ho there

/-- A worker that was told to stop comes to its end, if it is waited for long enough. -/
theorem over_of_run (stopping : q.inbox.stopping = true) :
    (q.run R none).worker.isOver = true := by
  fun_induction run R none q with
  | case1 q hnone =>
    unfold next? at hnone
    cases hw : q.worker with
    | idle => simp [hw, stopping] at hnone
    | draining => cases hq : q.inbox.waiting <;> simp [hw, hq] at hnone
    | busy duty endsAt after => simp [hw, Timer.isBefore] at hnone
    | ended => rfl
    | dead => rfl
  | case2 q t next ih =>
    have move : Move q [] t := .work next
    exact ih (move.started_of_stopping stopping).2.1

end After

/-- Whether no run and no discard has panicked. -/
def Calm (q : SerialQueue τ σ) : Prop := ∀ duty ∈ q.broken, duty = .shutdown

/-- Where a worker that is over leaves the accepted tasks. -/
structure Settled (js : List τ) (q : SerialQueue τ σ) : Prop where
  partition : js = q.started ++ q.discarded
  finished : q.finished = q.started
  hookCalls : q.hookCalls = 1
  last : HookLast q.past
  /-- Nothing happens any more, beside what is logged. -/
  still : ∀ ks t, Path q ks t →
    ks = [] ∧ ∃ logs : List LogRecord, t.past = q.past ++ logs.map .log

/-- What a panic in the run of a task leaves behind. -/
structure Broken (R : Runnable τ σ) (js : List τ) (q : SerialQueue τ σ) (task : τ) : Prop where
  /-- The tasks accepted before it have run, and it is the last one that was started. -/
  partition : ∃ rest, js = q.finished ++ task :: rest
  started : q.started = q.finished ++ [task]
  discarded : q.discarded = []
  hookCalls : q.hookCalls = 0
  still : ∀ ks t, Path q ks t →
    ks = [] ∧ ∃ logs : List LogRecord, t.past = q.past ++ logs.map .log
  closed : q.owner = .running → ∀ next, q.step R (.submit next) = (q, .refused .closed)
  returns : q.owner ≠ .gone → (q.step R .stop).2 = .stopped

/-- What holds at a moment at which the tasks `js` have been accepted. -/
structure Contract (R : Runnable τ σ) (js : List τ) (q : SerialQueue τ σ) : Prop where
  /-- Until the signal to stop, the accepted tasks are those that have started and those that
  wait. -/
  waiting : q.Calm → q.inbox.stopping = false → js = q.started ++ q.inbox.waiting ∧ q.discarded = []
  /-- From then on some of those that wait may have been discarded. -/
  draining : q.Calm → js = q.started ++ (q.discarded ++ q.inbox.waiting)
  /-- When a stop has returned, they are those that have started and those that were discarded. -/
  stopped : ∀ t, q.owner = .running → q.step R .stop = (t, .stopped) → t.Calm → Settled js t
  /-- So they are as soon as the worker is over, whether or not anyone waits for it. -/
  ended : q.worker.isOver = true → q.Calm → Settled js q
  /-- A worker that is told to stop comes to its end, whatever the handler does. -/
  ends : ((q.letGo .stopped).run R none).worker.isOver = true
  /-- At no point of the past more than one task was inside its run. -/
  serial : SerialPast q.past
  hookCalls : q.hookCalls ≤ 1
  /-- The worker is told to stop when the queue is stopped or let go of. -/
  signal : q.inbox.stopping = true ↔ q.owner ≠ .running
  /-- A stop leaves the queue stopped, and so it stays until the caller lets go of it. -/
  lasting : (q.owner ≠ .gone → (q.step R .stop).1.owner = .stopped) ∧
    (q.owner = .stopped → ∀ call, call ≠ .drop → (q.step R call).1.owner = .stopped)
  /-- What has not started when the worker is told to stop never starts. -/
  starts : (q.step R .stop).1.started = q.started ∧
    (q.inbox.stopping = true → ∀ ks t, Path q ks t → ks = [] ∧ t.started = q.started)
  again : q.owner ≠ .running → (q.step R .stop).1 = q
  refused : q.owner = .stopped → ∀ task, q.step R (.submit task) = (q, .refused .notRunning)
  broken : ∀ task, .run task ∈ q.broken → Broken R js q task

section Contract

/-- A worker that died although no run and no discard has panicked died in its shutdown hook. -/
theorem Calm.ruin {waiting : List τ} {duty : Duty τ} (calm : q.Calm)
    (fallen : Fallen js waiting q.past duty) : Ruin js q.past .shutdown := by
  have hduty : duty = .shutdown := calm duty (by simp [broken, fallen.broken])
  rw [← hduty]
  exact fallen.ruin

theorem Sound.draining (sound : Sound js q) (calm : q.Calm) :
    js = q.started ++ (q.discarded ++ q.inbox.waiting) := by
  obtain ⟨inside, -, work⟩ | drain | closing | ⟨-, duty, fallen⟩ := sound.account.phase
  · have none : q.discarded = [] := work.discarded
    rw [none, List.nil_append]
    exact work.partition
  · exact drain.partition
  · rw [closing.waiting, List.append_nil]
    exact closing.partition
  · rw [fallen.waiting, List.append_nil]
    exact (calm.ruin fallen).1

theorem Sound.waiting (sound : Sound js q) (calm : q.Calm) (going : q.inbox.stopping = false) :
    js = q.started ++ q.inbox.waiting ∧ q.discarded = [] := by
  have hnone := (sound.early going).1
  have hjs := sound.draining calm
  rw [hnone, List.nil_append] at hjs
  exact ⟨hjs, hnone⟩

/-- What is done when a worker is over and no run and no discard has panicked. -/
theorem Sound.settled (sound : Sound js q) (isOver : q.worker.isOver = true) (calm : q.Calm) :
    Settled js q := by
  have account := sound.account
  have still : ∀ ks t, Path q ks t → ks = [] ∧ ∃ logs : List LogRecord,
      t.past = q.past ++ logs.map .log := by
    intro ks t path
    obtain ⟨hks, -, hpast⟩ := sound.untouched path isOver
    exact ⟨hks, hpast⟩
  cases hw : q.worker with
  | ended =>
    rw [hw] at account
    have closing : Closing js q.inbox.waiting q.past := account
    exact ⟨closing.partition, closing.inside.symm, closing.hook.hookCalls, closing.hook, still⟩
  | dead =>
    rw [hw] at account
    obtain ⟨duty, fallen⟩ := account
    obtain ⟨hjs, hinside, hlast⟩ := calm.ruin fallen
    exact ⟨hjs, hinside.symm, hlast.hookCalls, hlast, still⟩
  | idle =>
    rw [hw] at isOver
    cases isOver
  | draining =>
    rw [hw] at isOver
    cases isOver
  | busy duty endsAt after =>
    rw [hw] at isOver
    cases isOver

theorem Sound.hookCalls (sound : Sound js q) : q.hookCalls ≤ 1 := by
  show hookCallsIn q.past ≤ 1
  obtain ⟨inside, -, work⟩ | drain | closing | ⟨-, duty, -, -, ruin⟩ := sound.account.phase
  · have never := work.hookCalls
    omega
  · have never := drain.hookCalls
    omega
  · have once := closing.hook.hookCalls
    omega
  · cases duty with
    | run task =>
      have never := ruin.2.2.2
      omega
    | discard task =>
      have never := ruin.2.2
      omega
    | shutdown =>
      have once := ruin.2.2.hookCalls
      omega

/-- Only a worker that is gone has anything that its handler panicked over. -/
theorem Sound.fallen {duty : Duty τ} (sound : Sound js q) (hduty : duty ∈ q.broken) :
    q.worker = .dead ∧ Fallen js q.inbox.waiting q.past duty := by
  have whole : brokenIn q.past ≠ [] := List.ne_nil_of_mem hduty
  obtain ⟨inside, -, work⟩ | drain | closing | ⟨hw, other, fallen⟩ := sound.account.phase
  · exact absurd work.whole whole
  · exact absurd drain.whole whole
  · exact absurd closing.whole whole
  · have hsame : duty = other := by
      rw [show q.broken = [other] from fallen.broken] at hduty
      exact List.mem_singleton.1 hduty
    rw [hsame]
    exact ⟨hw, fallen⟩

/-- A task whose run panics is the last one started, and ends the worker. -/
theorem Sound.broken {task : τ} (sound : Sound js q) (hbroken : .run task ∈ q.broken) :
    Broken R js q task := by
  obtain ⟨hw, -, -, hjs, hstarted, hnone, hcalls⟩ := sound.fallen hbroken
  have isOver : q.worker.isOver = true := by rw [hw]; rfl
  refine ⟨hjs, hstarted, hnone, hcalls, fun ks t path => ?_, fun running next => ?_,
    stopped_of_over isOver⟩
  · obtain ⟨hks, -, hpast⟩ := sound.untouched path isOver
    exact ⟨hks, hpast⟩
  · have closed : q.inbox.closed = true := by rw [sound.closed, hw]; rfl
    have going : q.inbox.stopping ≠ true := fun stopping => sound.signal.1 stopping running
    simp [step, running, Inbox.submit, going, closed]

/-- While a stop waits for the worker no further task begins its run. -/
theorem started_stop (R : Runnable τ σ) (q : SerialQueue τ σ) :
    (q.step R .stop).1.started = q.started := by
  cases ho : q.owner with
  | running =>
    simp only [step, ho]
    exact ((path_letGo R q).started_of_stopping rfl).2.2
  | stopped => simp only [step, ho]
  | gone => simp only [step, ho]

theorem Sound.contract (sound : Sound js q) : Contract R js q where
  waiting := sound.waiting
  draining := sound.draining
  stopped := by
    intro t running h calm
    have path : Path q [] t := by
      have hstep := path_step R q .stop
      rwa [h] at hstep
    have later : Sound js t := by
      have later := sound.path path
      rwa [List.append_nil] at later
    exact later.settled (over_of_stopped running h) calm
  ended := sound.settled
  ends := over_of_run rfl
  serial := sound.serial
  hookCalls := sound.hookCalls
  signal := sound.signal
  lasting := by
    refine ⟨fun there => ?_, fun stopped call kept => owner_step stopped kept⟩
    cases ho : q.owner with
    | running => simpa only [step, ho] using owner_stop
    | stopped => simp only [step, ho]
    | gone => exact absurd ho there
  starts := by
    refine ⟨started_stop R q, fun stopping ks t path => ?_⟩
    obtain ⟨hks, -, hstarted⟩ := path.started_of_stopping stopping
    exact ⟨hks, hstarted⟩
  again away := by
    cases ho : q.owner with
    | running => exact absurd ho away
    | stopped => simp only [step, ho]
    | gone => simp only [step, ho]
  refused stopped task := by
    have hs : q.inbox.stopping = true := sound.signal.2 (by simp [stopped])
    simp [step, stopped, Inbox.submit, hs]
  broken _ := sound.broken

end Contract

end SerialDispatch.SerialQueue
