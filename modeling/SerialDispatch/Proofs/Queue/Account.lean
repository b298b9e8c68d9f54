import SerialDispatch.Proofs.Queue.Path

/-!
# What has become of the accepted tasks

`Account` says, for each thing that the worker can be doing, where the accepted tasks are: started,
waiting or discarded. It holds of a new queue and every move keeps it; main statement:
`SerialQueue.sound_moment`.
-/
namespace SerialDispatch

variable {τ σ : Type}

/-- Whether the worker has not seen the signal to stop and is not dead. -/
def QueueWorker.isWorking : QueueWorker τ σ → Bool
  | .idle | .busy (.run _) _ _ => true
  | _ => false

/-- Whether the worker has seen the signal to stop, and is not dead. -/
def QueueWorker.hasSeen : QueueWorker τ σ → Bool
  | .draining | .busy (.discard _) _ _ | .busy .shutdown _ _ | .ended => true
  | _ => false

/-- A worker that is over does not work. -/
theorem QueueWorker.not_working_of_over {worker : QueueWorker τ σ} (isOver : worker.isOver = true) :
    worker.isWorking = false := by
  cases worker with
  | idle => cases isOver
  | busy duty endsAt after => cases isOver
  | draining => rfl
  | ended => rfl
  | dead => rfl

/-- While tasks are run: every task that was accepted has started or waits. -/
structure Working (js inside waiting : List τ) (past : List (QueueEvent τ)) : Prop where
  partition : js = startedIn past ++ waiting
  inside : startedIn past = finishedIn past ++ inside
  discarded : discardedIn past = []
  hookCalls : hookCallsIn past = 0
  whole : brokenIn past = []

/-- While tasks are discarded: every task that was accepted has run, was discarded or waits. -/
structure Draining (js waiting : List τ) (past : List (QueueEvent τ)) : Prop where
  partition : js = startedIn past ++ (discardedIn past ++ waiting)
  inside : startedIn past = finishedIn past
  hookCalls : hookCallsIn past = 0
  whole : brokenIn past = []

/-- The shutdown hook was called once, and nothing was run or discarded from then on. -/
def HookLast (past : List (QueueEvent τ)) : Prop :=
  ∃ before time after, past = before ++ .began .shutdown time :: after ∧ hookCallsIn before = 0 ∧
    ∀ e ∈ after, e.task? = none ∧ e.isHook = false

/-- From the call of the shutdown hook on: every task that was accepted has run or was discarded. -/
structure Closing (js waiting : List τ) (past : List (QueueEvent τ)) : Prop where
  partition : js = startedIn past ++ discardedIn past
  waiting : waiting = []
  inside : startedIn past = finishedIn past
  hook : HookLast past
  whole : brokenIn past = []

/-- What a panic leaves behind, by what the handler panicked over. -/
def Ruin (js : List τ) (past : List (QueueEvent τ)) : Duty τ → Prop
  | .run task => (∃ rest, js = finishedIn past ++ task :: rest) ∧
      startedIn past = finishedIn past ++ [task] ∧ discardedIn past = [] ∧ hookCallsIn past = 0
  | .discard _ => (∃ rest, js = startedIn past ++ (discardedIn past ++ rest)) ∧
      startedIn past = finishedIn past ∧ hookCallsIn past = 0
  | .shutdown => js = startedIn past ++ discardedIn past ∧ startedIn past = finishedIn past ∧
      HookLast past

/-- When the worker is gone in the middle of its work. -/
structure Fallen (js waiting : List τ) (past : List (QueueEvent τ)) (duty : Duty τ) : Prop where
  waiting : waiting = []
  broken : brokenIn past = [duty]
  ruin : Ruin js past duty

def Account (js waiting : List τ) (past : List (QueueEvent τ)) : QueueWorker τ σ → Prop
  | .idle => Working js [] waiting past
  | .busy (.run task) _ _ => Working js [task] waiting past
  | .draining => Draining js waiting past
  | .busy (.discard _) _ _ => Draining js waiting past
  | .busy .shutdown _ _ => Closing js waiting past
  | .ended => Closing js waiting past
  | .dead => ∃ duty, Fallen js waiting past duty

section Account

variable {js waiting rest : List τ} {past : List (QueueEvent τ)} {task : τ} {time : Nat}

theorem HookLast.snoc (last : HookLast past) {e : QueueEvent τ} (none : e.task? = none)
    (no : e.isHook = false) : HookLast (past ++ [e]) := by
  obtain ⟨before, began, after, rfl, hbefore, hafter⟩ := last
  refine ⟨before, began, after ++ [e], by simp, hbefore, fun k hk => ?_⟩
  rcases List.mem_append.1 hk with earlier | now
  · exact hafter k earlier
  · rw [List.mem_singleton.1 now]
    exact ⟨none, no⟩

theorem HookLast.hookCalls (last : HookLast past) : hookCallsIn past = 1 := by
  obtain ⟨before, began, after, rfl, hbefore, hafter⟩ := last
  have hnone : hookCallsIn after = 0 := by
    refine List.countP_eq_zero.2 fun e he => ?_
    rw [(hafter e he).2]
    exact Bool.false_ne_true
  have hsplit : before ++ QueueEvent.began .shutdown began :: after =
      before ++ [.began .shutdown began] ++ after := by simp
  rw [hsplit, hookCallsIn_append, hookCallsIn_append, hbefore, hnone]
  simp

theorem Working.shut (work : Working js [] waiting past) : Draining js waiting past where
  partition := by rw [work.discarded, work.partition]; simp
  inside := by rw [work.inside, List.append_nil]
  hookCalls := work.hookCalls
  whole := work.whole

/-- A task that is taken from the inbox has started and is inside its run. -/
theorem Working.take (work : Working js [] (task :: rest) past) :
    Working js [task] rest (past ++ [.began (.run task) time]) where
  partition := by simp [work.partition]
  inside := by simp [work.inside]
  discarded := by simp [work.discarded]
  hookCalls := by simp [work.hookCalls]
  whole := by simp [work.whole]

/-- A run that comes to its end leaves nobody inside. -/
theorem Working.finish (work : Working js [task] waiting past) :
    Working js [] waiting (past ++ [.ended (.run task) time]) where
  partition := by simp [work.partition]
  inside := by simp [work.inside]
  discarded := by simp [work.discarded]
  hookCalls := by simp [work.hookCalls]
  whole := by simp [work.whole]

/-- A task whose run panics is the last one that was started. -/
theorem Working.broke (work : Working js [task] waiting past) :
    Fallen js [] (past ++ [.broke (.run task) time]) (.run task) where
  waiting := rfl
  broken := by simp [work.whole]
  ruin := by
    refine ⟨⟨waiting, ?_⟩, ?_, ?_, ?_⟩
    · rw [work.partition, work.inside]
      simp
    · simp [work.inside]
    · simp [work.discarded]
    · simp [work.hookCalls]

theorem Working.submit {inside : List τ} (work : Working js inside waiting past) (task : τ) :
    Working (js ++ [task]) inside (waiting ++ [task]) past where
  partition := by rw [work.partition, List.append_assoc]
  inside := work.inside
  discarded := work.discarded
  hookCalls := work.hookCalls
  whole := work.whole

theorem Draining.take (drain : Draining js (task :: rest) past) :
    Draining js rest (past ++ [.began (.discard task) time]) where
  partition := by simp [drain.partition]
  inside := by simp [drain.inside]
  hookCalls := by simp [drain.hookCalls]
  whole := by simp [drain.whole]

theorem Draining.finish (drain : Draining js waiting past) :
    Draining js waiting (past ++ [.ended (.discard task) time]) where
  partition := by simp [drain.partition]
  inside := by simp [drain.inside]
  hookCalls := by simp [drain.hookCalls]
  whole := by simp [drain.whole]

theorem Draining.broke (drain : Draining js waiting past) :
    Fallen js [] (past ++ [.broke (.discard task) time]) (.discard task) where
  waiting := rfl
  broken := by simp [drain.whole]
  ruin := by
    refine ⟨⟨waiting, ?_⟩, ?_, ?_⟩
    · simp [drain.partition]
    · simp [drain.inside]
    · simp [drain.hookCalls]

/-- When nothing is left to be discarded the shutdown hook is called. -/
theorem Draining.hook (drain : Draining js [] past) :
    Closing js [] (past ++ [.began .shutdown time]) where
  partition := by simp [drain.partition]
  waiting := rfl
  inside := by simp [drain.inside]
  hook := ⟨past, time, [], rfl, drain.hookCalls, fun e he => absurd he List.not_mem_nil⟩
  whole := by simp [drain.whole]

theorem Closing.finish (closing : Closing js waiting past) :
    Closing js waiting (past ++ [.ended .shutdown time]) where
  partition := by simp [closing.partition]
  waiting := closing.waiting
  inside := by simp [closing.inside]
  hook := closing.hook.snoc rfl rfl
  whole := by simp [closing.whole]

theorem Closing.broke (closing : Closing js waiting past) :
    Fallen js [] (past ++ [.broke .shutdown time]) .shutdown where
  waiting := rfl
  broken := by simp [closing.whole]
  ruin := by
    refine ⟨?_, ?_, closing.hook.snoc rfl rfl⟩
    · simp [closing.partition]
    · simp [closing.inside]

/-- A record in the log is about no task. -/
theorem Fallen.log {duty : Duty τ} (fallen : Fallen js waiting past duty) (record : LogRecord) :
    Fallen js waiting (past ++ [.log record]) duty where
  waiting := fallen.waiting
  broken := by simp [fallen.broken]
  ruin := by
    have ruin := fallen.ruin
    cases duty with
    | run task => simpa [Ruin] using ruin
    | discard task => simpa [Ruin] using ruin
    | shutdown =>
      obtain ⟨hjs, hinside, hlast⟩ := ruin
      exact ⟨by simpa using hjs, by simpa using hinside, hlast.snoc rfl rfl⟩

/-- An account is that of a worker that runs tasks, discards them, shuts down or is gone. -/
theorem Account.phase {worker : QueueWorker τ σ} (account : Account js waiting past worker) :
    (∃ inside : List τ, inside.length ≤ 1 ∧ Working js inside waiting past) ∨
      Draining js waiting past ∨ Closing js waiting past ∨
      worker = .dead ∧ ∃ duty, Fallen js waiting past duty := by
  cases worker with
  | idle => exact .inl ⟨[], by simp, account⟩
  | draining => exact .inr (.inl account)
  | ended => exact .inr (.inr (.inl account))
  | dead => exact .inr (.inr (.inr ⟨rfl, account⟩))
  | busy duty endsAt after =>
    cases duty with
    | run task => exact .inl ⟨[task], by simp, account⟩
    | discard task => exact .inr (.inl account)
    | shutdown => exact .inr (.inr (.inl account))

/-- At most one task is inside its run, the one that was started last. -/
theorem Account.one {worker : QueueWorker τ σ} (account : Account js waiting past worker) :
    ∃ inside : List τ, inside.length ≤ 1 ∧ startedIn past = finishedIn past ++ inside := by
  have nobody : startedIn past = finishedIn past → ∃ inside : List τ, inside.length ≤ 1 ∧
      startedIn past = finishedIn past ++ inside := by
    intro same
    exact ⟨[], by simp, by rw [same, List.append_nil]⟩
  obtain ⟨inside, most, work⟩ | drain | closing | ⟨-, duty, -, -, ruin⟩ := account.phase
  · exact ⟨inside, most, work.inside⟩
  · exact nobody drain.inside
  · exact nobody closing.inside
  · cases duty with
    | run task => exact ⟨[task], by simp, ruin.2.1⟩
    | discard task => exact nobody ruin.2.1
    | shutdown => exact nobody ruin.2.1

end Account

/-- At every point of the past at most one task has begun its run and not ended it, and that is the
task that began last. -/
def SerialPast (past : List (QueueEvent τ)) : Prop :=
  ∀ before, before <+: past →
    ∃ inside : List τ, inside.length ≤ 1 ∧ startedIn before = finishedIn before ++ inside

namespace SerialQueue

def started (q : SerialQueue τ σ) : List τ := startedIn q.past

def finished (q : SerialQueue τ σ) : List τ := finishedIn q.past

def discarded (q : SerialQueue τ σ) : List τ := discardedIn q.past

def hookCalls (q : SerialQueue τ σ) : Nat := hookCallsIn q.past

def broken (q : SerialQueue τ σ) : List (Duty τ) := brokenIn q.past

/-- What every moment of a queue satisfies, with the tasks accepted so far. -/
structure Sound (js : List τ) (q : SerialQueue τ σ) : Prop where
  account : Account js q.inbox.waiting q.past q.worker
  serial : SerialPast q.past
  closed : q.inbox.closed = !q.worker.isWorking
  seen : q.worker.hasSeen = true → q.inbox.stopping = true
  /-- Nothing is discarded before the signal to stop. -/
  early : q.inbox.stopping = false → q.discarded = [] ∧ q.hookCalls = 0
  signal : q.inbox.stopping = true ↔ q.owner ≠ .running

theorem sound_start (handler : σ) : Sound ([] : List τ) (start handler) where
  account := ⟨rfl, rfl, rfl, rfl, rfl⟩
  serial := by
    intro before h
    rw [List.prefix_nil.1 h]
    exact ⟨[], by simp, rfl⟩
  closed := rfl
  seen h := by cases h
  early _ := ⟨rfl, rfl⟩
  signal := by simp [start, Inbox.empty]

section Steps

variable {R : Runnable τ σ} {q t : SerialQueue τ σ} {js ks accepted : List τ}

/-- What a worker does next, in the order of its work. -/
theorem next_cases {limit : Option Nat} (h : q.next? R limit = some t) :
    (∃ task rest, q.worker = .idle ∧ q.inbox.stopping = false ∧ q.inbox.waiting = task :: rest ∧
      t = q.take R (.run task) rest) ∨
    (q.worker = .idle ∧ q.inbox.stopping = true ∧ t = q.shut) ∨
    (∃ task rest, q.worker = .draining ∧ q.inbox.waiting = task :: rest ∧
      t = q.take R (.discard task) rest) ∨
    (q.worker = .draining ∧ q.inbox.waiting = [] ∧ t = q.begin R .shutdown) ∨
    ∃ duty endsAt after time, q.worker = .busy duty endsAt after ∧
      t = { q with clock := time }.conclude duty after := by
  unfold next? at h
  cases hw : q.worker with
  | idle =>
    simp only [hw] at h
    by_cases hs : q.inbox.stopping = true
    · rw [if_pos hs] at h
      exact .inr (.inl ⟨rfl, hs, (Option.some.inj h).symm⟩)
    · rw [if_neg hs] at h
      cases hq : q.inbox.waiting with
      | nil => simp [hq] at h
      | cons task rest =>
        simp only [hq, Option.some.injEq] at h
        exact .inl ⟨task, rest, rfl, by simpa using hs, rfl, h.symm⟩
  | draining =>
    simp only [hw] at h
    cases hq : q.inbox.waiting with
    | nil =>
      simp only [hq, Option.some.injEq] at h
      exact .inr (.inr (.inr (.inl ⟨rfl, rfl, h.symm⟩)))
    | cons task rest =>
      simp only [hq, Option.some.injEq] at h
      exact .inr (.inr (.inl ⟨task, rest, rfl, rfl, h.symm⟩))
  | busy duty endsAt after =>
    simp only [hw] at h
    split at h
    · exact .inr (.inr (.inr (.inr ⟨duty, endsAt, after, _, rfl, (Option.some.inj h).symm⟩)))
    · cases h
  | ended => simp [hw] at h
  | dead => simp [hw] at h

/-- A move is at most one event. -/
theorem Move.past (move : Move q accepted t) :
    t.past = q.past ∨ ∃ e, t.past = q.past ++ [e] := by
  cases move with
  | submit _ _ => exact .inl rfl
  | work next =>
    rcases next_cases next with ⟨task, rest, -, -, -, rfl⟩ | ⟨-, -, rfl⟩ | ⟨task, rest, -, -, rfl⟩ |
      ⟨-, -, rfl⟩ | ⟨duty, endsAt, after, time, -, rfl⟩
    · exact .inr ⟨_, rfl⟩
    · exact .inl rfl
    · exact .inr ⟨_, rfl⟩
    · exact .inr ⟨_, rfl⟩
    · cases after with
      | none => exact .inr ⟨_, rfl⟩
      | some handler => exact .inr ⟨_, rfl⟩
  | wait _ => exact .inl rfl
  | letGo _ => exact .inl rfl
  | report _ _ => exact .inr ⟨_, rfl⟩

/-- The handler is done with a duty, or panics. -/
theorem Sound.conclude {duty : Duty τ} {endsAt : Nat} {after : Option σ} (sound : Sound js q)
    (busy : q.worker = .busy duty endsAt after) (time : Nat) :
    Account js ({ q with clock := time }.conclude duty after).inbox.waiting
      ({ q with clock := time }.conclude duty after).past
      ({ q with clock := time }.conclude duty after).worker := by
  have account := sound.account
  rw [busy] at account
  cases duty with
  | run task =>
    have work : Working js [task] q.inbox.waiting q.past := account
    cases after with
    | none => exact ⟨_, work.broke⟩
    | some handler => exact work.finish
  | discard task =>
    have drain : Draining js q.inbox.waiting q.past := account
    cases after with
    | none => exact ⟨_, drain.broke⟩
    | some handler => exact drain.finish
  | shutdown =>
    have closing : Closing js q.inbox.waiting q.past := account
    cases after with
    | none => exact ⟨_, closing.broke⟩
    | some handler => exact closing.finish

/-- Every move keeps the account of the tasks. -/
theorem Sound.account_move (sound : Sound js q) (move : Move q accepted t) :
    Account (js ++ accepted) t.inbox.waiting t.past t.worker := by
  have account := sound.account
  cases move with
  | @submit task inbox _ taken =>
    obtain ⟨-, hclosed, rfl⟩ := Inbox.submit_eq_ok.1 taken
    have hworking := sound.closed
    rw [hclosed] at hworking
    show Account (js ++ [task]) (q.inbox.waiting ++ [task]) q.past q.worker
    cases hw : q.worker with
    | idle =>
      rw [hw] at account
      exact Working.submit account task
    | busy duty endsAt after =>
      rw [hw] at account hworking
      cases duty with
      | run running => exact Working.submit account task
      | discard dropped => cases hworking
      | shutdown => cases hworking
    | draining => rw [hw] at hworking; cases hworking
    | ended => rw [hw] at hworking; cases hworking
    | dead => rw [hw] at hworking; cases hworking
  | work next =>
    rw [List.append_nil]
    rcases next_cases next with ⟨task, rest, idle, -, hq, rfl⟩ | ⟨idle, -, rfl⟩ |
      ⟨task, rest, draining, hq, rfl⟩ | ⟨draining, hq, rfl⟩ | ⟨duty, endsAt, after, time, busy, rfl⟩
    · rw [idle, hq] at account
      exact Working.take account
    · rw [idle] at account
      exact Working.shut account
    · rw [draining, hq] at account
      exact Draining.take account
    · rw [draining, hq] at account
      show Closing js q.inbox.waiting _
      rw [hq]
      exact Draining.hook account
    · exact sound.conclude busy time
  | wait time =>
    rw [List.append_nil]
    exact account
  | letGo away =>
    rw [List.append_nil]
    exact account
  | report log gone =>
    rw [List.append_nil]
    rw [gone] at account
    obtain ⟨duty, fallen⟩ := account
    show Account js q.inbox.waiting (q.past ++ [.log log]) q.worker
    rw [gone]
    exact ⟨duty, fallen.log log⟩

/-- What the inbox of a queue says about its worker and its owner. -/
theorem Sound.signal_move (sound : Sound js q) (move : Move q accepted t) :
    t.inbox.closed = (!t.worker.isWorking) ∧
      (t.worker.hasSeen = true → t.inbox.stopping = true) ∧
      (t.inbox.stopping = true ↔ t.owner ≠ .running) := by
  have closed := sound.closed
  have seen := sound.seen
  have signal := sound.signal
  cases move with
  | @submit task inbox _ taken =>
    obtain ⟨-, -, rfl⟩ := Inbox.submit_eq_ok.1 taken
    exact ⟨closed, seen, signal⟩
  | work next =>
    rcases next_cases next with ⟨task, rest, idle, -, -, rfl⟩ | ⟨-, stopping, rfl⟩ |
      ⟨task, rest, draining, -, rfl⟩ | ⟨draining, -, rfl⟩ | ⟨duty, endsAt, after, time, busy, rfl⟩
    · rw [idle] at closed
      exact ⟨closed, fun h => absurd h Bool.false_ne_true, signal⟩
    · exact ⟨rfl, fun _ => stopping, signal⟩
    · rw [draining] at closed seen
      exact ⟨closed, fun _ => seen rfl, signal⟩
    · rw [draining] at closed seen
      exact ⟨closed, fun _ => seen rfl, signal⟩
    · rw [busy] at closed seen
      cases after with
      | none => exact ⟨rfl, fun h => absurd h Bool.false_ne_true, signal⟩
      | some handler =>
        cases duty with
        | run task => exact ⟨closed, fun h => absurd h Bool.false_ne_true, signal⟩
        | discard task => exact ⟨closed, fun _ => seen rfl, signal⟩
        | shutdown => exact ⟨closed, fun _ => seen rfl, signal⟩
  | wait time => exact ⟨closed, seen, signal⟩
  | letGo away => exact ⟨closed, fun _ => rfl, fun _ => away, fun _ => rfl⟩
  | report log gone => exact ⟨closed, seen, signal⟩

theorem Sound.early_move (sound : Sound js q) (move : Move q accepted t) :
    t.inbox.stopping = false → t.discarded = [] ∧ t.hookCalls = 0 := by
  have early := sound.early
  have seen := sound.seen
  cases move with
  | submit _ taken =>
    obtain ⟨-, -, rfl⟩ := Inbox.submit_eq_ok.1 taken
    exact early
  | work next =>
    rcases next_cases next with ⟨task, rest, idle, -, -, rfl⟩ | ⟨-, stopping, rfl⟩ |
      ⟨task, rest, draining, -, rfl⟩ | ⟨draining, -, rfl⟩ | ⟨duty, endsAt, after, time, busy, rfl⟩
    · intro going
      obtain ⟨hdiscarded, hcalls⟩ := early going
      simp only [discarded, hookCalls] at hdiscarded hcalls
      simp [discarded, hookCalls, take, begin, record, hdiscarded, hcalls]
    · exact fun going => absurd going (by simp [shut, stopping])
    · rw [draining] at seen
      exact fun going => absurd going (by simp [take, begin, record, seen rfl])
    · rw [draining] at seen
      exact fun going => absurd going (by simp [begin, record, seen rfl])
    · intro going
      cases after with
      | none =>
        obtain ⟨hdiscarded, hcalls⟩ := early going
        simp only [discarded, hookCalls] at hdiscarded hcalls
        simp [SerialQueue.conclude, discarded, hookCalls, record, die, hdiscarded, hcalls]
      | some handler =>
        obtain ⟨hdiscarded, hcalls⟩ := early going
        simp only [discarded, hookCalls] at hdiscarded hcalls
        simp [SerialQueue.conclude, discarded, hookCalls, record, hdiscarded, hcalls]
  | wait time => exact early
  | letGo away => exact fun going => absurd going (by simp [SerialQueue.letGo, Inbox.stop])
  | report log gone =>
    intro going
    obtain ⟨hdiscarded, hcalls⟩ := early going
    simp only [discarded, hookCalls] at hdiscarded hcalls
    simp [discarded, hookCalls, record, hdiscarded, hcalls]

theorem Sound.move (sound : Sound js q) (move : Move q accepted t) :
    Sound (js ++ accepted) t := by
  have account := sound.account_move move
  obtain ⟨closed, seen, signal⟩ := sound.signal_move move
  refine ⟨account, fun before hbefore => ?_, closed, seen, sound.early_move move, signal⟩
  rcases move.past with same | ⟨e, more⟩
  · rw [same] at hbefore
    exact sound.serial before hbefore
  · rw [more] at hbefore
    rcases List.prefix_concat_iff.1 hbefore with rfl | earlier
    · rw [← more]
      exact account.one
    · exact sound.serial before earlier

/-- Every moment of a queue is sound. -/
theorem Sound.path (sound : Sound js q) (path : Path q ks t) : Sound (js ++ ks) t := by
  induction path with
  | here => rwa [List.append_nil]
  | move _ last ih =>
    rw [← List.append_assoc]
    exact ih.move last

theorem sound_moment {handler : σ} (path : Path (start handler) js q) : Sound js q :=
  (sound_start handler).path path

end Steps
end SerialQueue
end SerialDispatch
