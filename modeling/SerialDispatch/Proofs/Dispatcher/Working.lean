import SerialDispatch.Proofs.Dispatcher.Chores
import SerialDispatch.Proofs.Dispatcher.Moving

/-!
# The worker keeps the ledger

Whatever the worker does next, its session stays booked: it takes a dispatch, looks at its token,
constructs and runs its operation, sends the terminal signal, discards what waits. So every session
that a script leads to is booked; main statement: `booked_runScript`.
-/
namespace SerialDispatch
namespace Session

section Booked

variable {S : Setup} {s t : Session} {task : Task}

theorem history_logWithin (s : Session) (task : Task) (event : LogEvent) :
    (s.logWithin task event).history = s.history ++ [.log ⟨s.clock, some task.span, event⟩] :=
  history_record _ _

theorem history_note (s : Session) (n : WorkerNote) :
    (s.note n).history = s.history ++ [.note n] := history_record _ _

theorem booked_of {l : Ledger} (run : Ledger.Run S .empty s.history l)
    (fits : Fits S s.workerSide l) (there : s.stage.isOver = false) : Booked S s :=
  ⟨⟨l, run, fits⟩, fun h => by rw [h] at there; cases there⟩

/-- The terminal signal of the dispatch at the desk is sent, and the worker is idle. -/
theorem booked_finish {l : Ledger} {slip : Slip} {p : Place} (fate : Fate)
    (fits : Fits S t.workerSide l) (there : t.stage.isOver = false)
    (desk : l.desk = some (slip, p)) (dropped : fate.place.isDropped = p.isDropped)
    (begun : p.hasBegun = true → fate.place.hasBegun = true)
    (number : fate.place.number? = p.number?)
    (run : Ledger.Run S .empty s.history { l with desk := some (slip, fate.place) })
    (side : s.workerSide = t.workerSide) (turn : Turn) :
    Booked S { s.emit slip.id (.finished (fate.outcome slip.kind)) with
      stage := .idle, turn := turn } := by
  obtain ⟨h, posts, hhistory, hside, -, -⟩ :=
    send_posts s (.event ⟨slip.id, .finished (fate.outcome slip.kind)⟩)
  refine booked_of (l := { l with desk := none, settled := l.settled ++ [(slip, fate)] }) ?_ ?_ rfl
  · show Ledger.Run S .empty (s.send _).history _
    rw [hhistory]
    exact run.snoc (.finished rfl posts)
  · have hnumber : t.constructed + p.number?.toList.length =
        t.constructed + fate.place.number?.toList.length := by rw [number]
    have hdone := fits.moved (Ledger.moved_settled desk fate) .idle t.inbox.waiting t.constructed
      dropped begun there rfl rfl (fits.queue there) hnumber
    have hw : { s.emit slip.id (.finished (fate.outcome slip.kind)) with
        stage := .idle, turn := turn }.workerSide = { (s.send
          (.event ⟨slip.id, .finished (fate.outcome slip.kind)⟩)).workerSide with
        stage := .idle } := rfl
    rw [hw, hside, side]
    exact hdone

/-- Where the worker comes from makes no difference to what it finds out about a token. -/
theorem check_stage (s : Session) (stage : Stage) (task : Task) :
    { s with stage := stage }.check task = s.check task := by
  unfold check emit send
  by_cases hc : s.tokens.isCancelled task.token = true
  · by_cases hp : s.phase = .alive
    · simp only [hc, if_true, reach, logWithin, record, hp]
    · simp only [hc, if_true, reach, logWithin, record, hp, if_false]
  · simp only [hc, reach, record, Bool.false_eq_true, if_false]

theorem Booked.check {wake : Nat} (booked : Booked S s) (hs : s.stage = .window task wake) :
    Booked S (s.check task) := by
  obtain ⟨⟨l, run, fits⟩, -⟩ := booked
  have there : s.stage.isOver = false := by rw [hs]; rfl
  obtain ⟨slip, rfl, desk⟩ : ∃ slip : Slip, slip.task = task ∧ l.desk = some (slip, .taken) := by
    have hworker := fits.worker
    simp only [workerSide, hs] at hworker
    exact hworker
  have hflag : s.tokens.isCancelled slip.task.token = decide (slip.id ∈ l.cancelled) :=
    fits.flag run.ordered desk rfl
  have looked := run.snoc (.worked desk fits.late (.checked s.clock))
  rw [← hflag] at looked
  unfold Session.check
  by_cases hc : s.tokens.isCancelled slip.task.token = true
  · simp only [hc, if_true]
    rw [hc, if_pos rfl] at looked
    have logged : Ledger.Run S .empty
        ((s.reach slip.task (.checked true)).logWithin slip.task .cancelledBeforeStart).history
        { l with desk := some (slip, .barred) } := by
      rw [history_logWithin, history_reach]
      exact looked.snoc (.silent rfl)
    exact booked_finish .barred fits there desk rfl (fun h => by cases h) rfl logged rfl _
  · simp only [hc, Bool.false_eq_true, if_false]
    have hc : s.tokens.isCancelled slip.task.token = false := by simpa using hc
    rw [hc] at looked
    refine booked_of (l := { l with desk := some (slip, .admitted) }) ?_ ?_ rfl
    · show Ledger.Run S .empty (s.reach slip.task (.checked false)).history _
      rw [history_reach]
      exact looked
    · exact fits.moved (Ledger.moved_desk desk .admitted) (.ready slip.task) s.inbox.waiting
        s.constructed rfl (fun h => by cases h)
        there rfl ⟨slip, rfl, rfl⟩ (fits.queue there) rfl

theorem Booked.take {rest : List Task} (booked : Booked S s) (idle : s.stage = .idle)
    (going : s.inbox.stopping = false) (first : s.inbox.waiting = task :: rest) :
    Booked S (s.take S task rest) := by
  obtain ⟨⟨l, run, fits⟩, -⟩ := booked
  have there : s.stage.isOver = false := by rw [idle]; rfl
  have free : l.desk = none := by
    have hworker := fits.worker
    simp only [workerSide, idle] at hworker
    exact hworker
  have hqueue : l.waiting.map Slip.task = task :: rest := (fits.queue there).trans first
  obtain ⟨slip, slips, hslips, rfl, hrest⟩ := List.map_eq_cons_iff.1 hqueue
  generalize hu : ({ s with
    inbox := { s.inbox with waiting := rest }, turn := s.turn.worked }.reach slip.task .taken) = u
  -- Once it is taken, the dispatch is as if its window had begun, however short that is.
  have taken : ∀ wake, Booked S { u with stage := .window slip.task wake } := by
    intro wake
    refine booked_of (l := { l with desk := some (slip, .taken), waiting := slips }) ?_ ?_ rfl
    · have hhistory : u.history = s.history ++ [.reached slip.task .taken s.clock] := by
        rw [← hu, history_reach]
        rfl
      show Ledger.Run S .empty u.history _
      rw [hhistory]
      exact run.snoc (.taken s.clock free hslips (fits.stopping.trans going))
    · rw [← hu]
      exact fits.moved (Ledger.moved_waiting free hslips .taken) (.window slip.task wake) rest
        s.constructed rfl (fun h => by cases h)
        there rfl ⟨slip, rfl, rfl⟩ hrest rfl
  unfold Session.take
  rw [hu]
  by_cases hw : (slip.task.waits && S.config.quiescence ≠ 0) = true
  · simp only [hw, if_true]
    exact (taken (Timer.due u.clock S.config.quiescence)).logWithin slip.task _
  · simp only [hw, if_false, Bool.false_eq_true]
    have checked := (taken 0).check rfl
    rwa [check_stage] at checked

/-- The operation of the dispatch at the desk is over. -/
theorem booked_left {l : Ledger} {slip : Slip} {p : Place} {x : Execution} {result : Option Result}
    (fits : Fits S t.workerSide l) (there : t.stage.isOver = false)
    (desk : l.desk = some (slip, p)) (kept : p.isDropped = false) (constructed : Nat)
    (number : constructed + p.number?.toList.length = t.constructed + 1)
    (run : Ledger.Run S .empty s.history { l with desk := some (slip, .left x result) })
    (side : s.workerSide = { t.workerSide with constructed := constructed }) :
    Booked S { s with stage := .leaving slip.task result } := by
  refine booked_of run ?_ rfl
  have hleft := fits.moved (Ledger.moved_desk desk (.left x result)) (.leaving slip.task result)
    t.inbox.waiting constructed kept.symm (fun _ => rfl)
    there rfl ⟨slip, x, rfl, rfl⟩ (fits.queue there) number
  have hw : { s with stage := .leaving slip.task result }.workerSide =
      { s.workerSide with stage := .leaving slip.task result } := rfl
  rw [hw, side]
  exact hleft

/-- The operation of the dispatch at the desk has still `rest` to do. -/
theorem booked_busy {l : Ledger} {slip : Slip} {p : Place} {x : Execution}
    (fits : Fits S t.workerSide l) (there : t.stage.isOver = false)
    (desk : l.desk = some (slip, p)) (kept : p.isDropped = false) (constructed : Nat)
    (number : constructed + p.number?.toList.length = t.constructed + 1)
    (run : Ledger.Run S .empty s.history { l with desk := some (slip, .busy x) })
    (side : s.workerSide = { t.workerSide with constructed := constructed })
    {rest : List BodyStep} (leaves : x.Leaves S slip rest) (wake : Nat) :
    Booked S { s with stage := .running slip.task x.number rest wake } := by
  refine booked_of run ?_ rfl
  have hbusy := fits.moved (Ledger.moved_desk desk (.busy x))
    (.running slip.task x.number rest wake) t.inbox.waiting constructed kept.symm (fun _ => rfl)
    there rfl ⟨slip, x, rfl, rfl, rfl, leaves⟩ (fits.queue there) number
  have hw : { s with stage := .running slip.task x.number rest wake }.workerSide =
      { s.workerSide with stage := .running slip.task x.number rest wake } := rfl
  rw [hw, side]
  exact hbusy

theorem Booked.construct (booked : Booked S s) (ready : s.stage = .ready task) :
    Booked S (s.construct S task) := by
  obtain ⟨⟨l, run, fits⟩, -⟩ := booked
  have there : s.stage.isOver = false := by rw [ready]; rfl
  obtain ⟨slip, rfl, desk⟩ : ∃ slip : Slip, slip.task = task ∧ l.desk = some (slip, .admitted) := by
    have hworker := fits.worker
    simp only [workerSide, ready] at hworker
    exact hworker
  have hmade : s.constructed = l.made := fits.made
  have made := (run.snoc (.worked desk fits.late (.constructed s.clock))).snoc
    (.silent (h := .note (.created s.constructed s.clock)) rfl)
  rw [← hmade] at made
  unfold Session.construct
  dsimp only
  generalize hu : (({ s with constructed := s.constructed + 1 }.reach slip.task
    (.constructed s.constructed)).note (.created s.constructed s.clock)) = u
  have hhistory : u.history = s.history ++
      [.reached slip.task (.constructed s.constructed) s.clock] ++
      [.note (.created s.constructed s.clock)] := by
    rw [← hu, history_note, history_reach]
    rfl
  have hside : u.workerSide = { s.workerSide with constructed := s.constructed + 1 } := by
    rw [← hu]
    rfl
  rw [← hhistory] at made
  cases hb : S.breaks s.constructed slip.task.request.kind with
  | true =>
    have broke := made.snoc (.worked rfl fits.late (.broke u.clock hb))
    rw [← history_reach] at broke
    exact booked_left fits there desk rfl (s.constructed + 1) rfl broke hside
  | false =>
    have ran := made.snoc (.worked rfl fits.late (.ran hb))
    rw [← history_note] at ran
    have leaves : (Execution.begin s.constructed).Leaves S slip (S.body slip.task.request) :=
      fun looks => rfl
    exact booked_busy fits there desk rfl (s.constructed + 1) rfl ran hside leaves s.clock

/-- What is known of a session whose worker is within a body. -/
theorem Booked.within {n wake : Nat} {steps : List BodyStep} (booked : Booked S s)
    (hs : s.stage = .running task n steps wake) : ∃ l slip x, Ledger.Run S .empty s.history l ∧
      Fits S s.workerSide l ∧ slip.task = task ∧ l.desk = some (slip, .busy x) ∧ x.number = n ∧
      x.Leaves S slip steps := by
  obtain ⟨⟨l, run, fits⟩, -⟩ := booked
  have hworker := fits.worker
  simp only [workerSide, hs] at hworker
  obtain ⟨slip, x, htask, desk, hn, leaves⟩ := hworker
  exact ⟨l, slip, x, run, fits, htask, desk, hn, leaves⟩

/-- A step that sends nothing and looks at nothing leaves the operation where it was. -/
theorem Booked.goOn {n wake wake' : Nat} {steps rest : List BodyStep} (booked : Booked S s)
    (hs : s.stage = .running task n steps wake)
    (same : ∀ looks, BodyStep.evaluate task.request.kind steps looks =
      BodyStep.evaluate task.request.kind rest looks) :
    Booked S { s with stage := .running task n rest wake' } := by
  obtain ⟨l, slip, x, run, fits, rfl, desk, rfl, leaves⟩ := booked.within hs
  have there : s.stage.isOver = false := by rw [hs]; rfl
  have hself : { l with desk := some (slip, .busy x) } = l := by rw [← desk]
  refine booked_busy fits there desk rfl s.constructed rfl (by rwa [hself]) rfl ?_
    wake'
  intro looks
  rw [leaves looks, show BodyStep.evaluate slip.kind steps looks = _ from same looks]
  rfl

/-- The body sends a signal. -/
theorem Booked.emits {n wake wake' : Nat} {steps rest : List BodyStep} (booked : Booked S s)
    (hs : s.stage = .running task n steps wake) {signal : Signal}
    (unfinished : signal.isFinished = false)
    (sends : ∀ looks, BodyStep.evaluate task.request.kind steps looks =
      (signal :: (BodyStep.evaluate task.request.kind rest looks).1,
        (BodyStep.evaluate task.request.kind rest looks).2)) :
    Booked S { s.emit task.id signal with stage := .running task n rest wake' } := by
  obtain ⟨l, slip, x, run, fits, rfl, desk, rfl, leaves⟩ := booked.within hs
  have there : s.stage.isOver = false := by rw [hs]; rfl
  obtain ⟨h, posts, hhistory, hside, -, -⟩ := send_posts s (.event ⟨slip.task.id, signal⟩)
  have sent := run.snoc (.worked desk fits.late (.emitted x posts unfinished))
  rw [← hhistory] at sent
  refine booked_busy fits there desk rfl s.constructed rfl sent hside ?_ wake'
  intro looks
  have hx := leaves looks
  rw [show BodyStep.evaluate slip.kind steps looks = _ from sends looks] at hx
  show _ = ((x.own ++ [signal]) ++ _, _)
  rw [List.append_assoc]
  exact hx

/-- The operation looks whether it is cancelled; it goes on, or it ends with what it then has to
end with. -/
theorem Booked.looks {n wake : Nat} {steps : List BodyStep} (booked : Booked S s)
    (hs : s.stage = .running task n steps wake) :
    (∀ (rest : List BodyStep) (wake' : Nat),
      (∀ looks, BodyStep.evaluate task.request.kind steps (s.seesCancelled task :: looks) =
        BodyStep.evaluate task.request.kind rest looks) →
      Booked S { s.look task with stage := .running task n rest wake' }) ∧
    ∀ result, BodyStep.evaluate task.request.kind steps [s.seesCancelled task] = ([], result) →
      Booked S ((s.look task).leaveBody task result) := by
  obtain ⟨l, slip, x, run, fits, rfl, desk, rfl, leaves⟩ := booked.within hs
  have there : s.stage.isOver = false := by rw [hs]; rfl
  have hflag : s.tokens.isCancelled slip.task.token = decide (slip.id ∈ l.cancelled) :=
    fits.flag run.ordered desk rfl
  have looked := run.snoc (.worked desk fits.late (.looked x s.clock))
  rw [← hflag, show (slip.kind.isCancellable && s.tokens.isCancelled slip.task.token) =
    s.seesCancelled slip.task from rfl, ← history_reach] at looked
  generalize hv : s.seesCancelled slip.task = value at looked ⊢
  have hside : (s.look slip.task).workerSide = s.workerSide := rfl
  have hlook : s.look slip.task = s.reach slip.task (.looked value) := by rw [look, hv]
  rw [hlook]
  refine ⟨fun rest wake' same => ?_, fun result ends => ?_⟩
  · refine booked_busy (x := x.look value) fits there desk rfl s.constructed rfl
      looked rfl ?_ wake'
    intro looks
    have hx := leaves (value :: looks)
    rw [show BodyStep.evaluate slip.kind steps (value :: looks) = _ from same looks] at hx
    show BodyStep.evaluate _ _ ((x.looks ++ [value]) ++ looks) = _
    rw [List.append_assoc]
    exact hx
  · have hx := leaves [value]
    rw [show BodyStep.evaluate slip.kind steps [value] = _ from ends, List.append_nil] at hx
    have left := looked.snoc (.worked rfl fits.late (.returned (x.look value) result s.clock hx))
    rw [show s.clock = (s.reach slip.task (.looked value)).clock from rfl, ← history_reach] at left
    exact booked_left fits there desk rfl s.constructed rfl left rfl

/-- The body ends with what it has to end with. -/
theorem Booked.ends {n wake : Nat} {steps : List BodyStep} (booked : Booked S s)
    (hs : s.stage = .running task n steps wake) {result : Option Result}
    (ends : BodyStep.evaluate task.request.kind steps [] = ([], result)) :
    Booked S (s.leaveBody task result) := by
  obtain ⟨l, slip, x, run, fits, rfl, desk, rfl, leaves⟩ := booked.within hs
  have there : s.stage.isOver = false := by rw [hs]; rfl
  have hx := leaves []
  rw [show BodyStep.evaluate slip.kind steps [] = _ from ends, List.append_nil,
    List.append_nil] at hx
  have left := run.snoc (.worked desk fits.late (.returned x result s.clock hx))
  rw [← history_reach] at left
  exact booked_left fits there desk rfl s.constructed rfl left rfl

/-- What a step of the body has come to is noted. -/
theorem Booked.noted {n wake : Nat} {steps : List BodyStep} (booked : Booked S s)
    (hs : s.stage = .running task n steps wake) (word : String) (reply : Reply) :
    Booked S (s.note (.stepped n word reply)) := by
  obtain ⟨l, slip, x, run, fits, rfl, desk, rfl, leaves⟩ := booked.within hs
  have there : s.stage.isOver = false := by rw [hs]; rfl
  have hself : { l with desk := some (slip, .busy x) } = l := by rw [← desk]
  refine booked_of (l := l) ?_ fits there
  have noted := run.snoc (.worked desk fits.late (.stepped x word reply))
  rwa [hself, ← history_note] at noted

/-- A sink is kept beyond the end of the operation. -/
theorem Booked.leak {n wake : Nat} {steps : List BodyStep} (booked : Booked S s)
    (hs : s.stage = .running task n steps wake) :
    Booked S { s with sinks := s.sinks ++ [some task.id] } := by
  obtain ⟨l, slip, x, run, fits, rfl, desk, rfl, leaves⟩ := booked.within hs
  have there : s.stage.isOver = false := by rw [hs]; rfl
  have hself : (slip, Stand.at (.busy x)) ∈ l.roll := by simp [Ledger.roll, desk]
  refine booked_of run ⟨fits.opened, fits.late, fits.torn, fits.stopping, fits.held, fits.closed,
    fits.ended, fits.known, fun id hid => ?_, fits.made, fits.queue, fits.worker⟩ there
  rcases List.mem_append.1 hid with hid | hid
  · exact fits.kept id hid
  · have hid : id = slip.id := Option.some.inj (List.mem_singleton.1 hid)
    refine ⟨⟨slip, List.mem_map_of_mem hself, hid.symm⟩, fun entry hentry heq => ?_⟩
    rw [run.ordered.unique hentry hself (heq.trans hid)]
    rfl

theorem Booked.beginShutdown (booked : Booked S s) : Booked S s.beginShutdown := by
  unfold Session.beginShutdown
  by_cases held : s.owner = .held
  · rw [if_pos held]
    exact booked.signalStop .closing (by decide)
  · rw [if_neg held]
    exact booked

theorem stage_beginShutdown (s : Session) : s.beginShutdown.stage = s.stage := by
  unfold Session.beginShutdown
  split <;> rfl

theorem Booked.bodyStep {n wake : Nat} {step : BodyStep} {rest : List BodyStep}
    (booked : Booked S s) (hs : s.stage = .running task n (step :: rest) wake) :
    Booked S (s.bodyStep S task n rest step) := by
  -- A step that is noted and then gone on from, whatever it has done to the session.
  have noted : ∀ {t : Session} {rest' : List BodyStep} (word : String) (reply : Reply)
      (wake' : Nat), Booked S t → t.stage = s.stage →
      (∀ looks, BodyStep.evaluate task.request.kind (step :: rest) looks =
        BodyStep.evaluate task.request.kind rest' looks) →
      Booked S { t.note (.stepped n word reply) with stage := .running task n rest' wake' } :=
    fun word reply wake' ht hstage same =>
      Booked.goOn (ht.noted (hstage.trans hs) word reply) (hstage.trans hs) same
  cases step with
  | progress update => exact booked.emits hs rfl fun _ => rfl
  | prevent => exact booked.emits hs rfl fun _ => rfl
  | flush => exact booked.goOn hs fun _ => rfl
  | work duration => exact booked.goOn hs fun _ => rfl
  | poll =>
    have looked := (booked.looks hs).1 rest s.clock fun _ => rfl
    exact looked.noted rfl "poll" (.flag (s.seesCancelled task))
  | stopIfCancelled steps =>
    simp only [Session.bodyStep]
    cases hv : s.seesCancelled task with
    | true =>
      refine (booked.looks hs).2 _ ?_
      simp [hv, BodyStep.evaluate]
    | false =>
      refine (booked.looks hs).1 rest s.clock fun looks => ?_
      simp [hv, BodyStep.evaluate]
  | leak => exact noted _ _ _ (booked.leak hs) rfl fun _ => rfl
  | panic => exact booked.ends hs rfl
  | finish kind status log => exact booked.ends hs rfl
  | store step => exact noted _ _ _ (booked.frame (t := (s.ask step).1) rfl rfl id) rfl fun _ => rfl
  | command command =>
    exact noted _ _ _ (booked.perform command) (Unmoved.perform s command).stage fun _ => rfl
  | shutdown =>
    exact noted _ _ _ booked.beginShutdown (stage_beginShutdown s) fun _ => rfl
  | unreadable word fault => exact noted _ _ _ booked rfl fun _ => rfl

theorem Booked.leave {result : Option Result} (booked : Booked S s)
    (hs : s.stage = .leaving task result) : Booked S (s.leave task result) := by
  obtain ⟨⟨l, run, fits⟩, -⟩ := booked
  have there : s.stage.isOver = false := by rw [hs]; rfl
  obtain ⟨slip, x, rfl, desk⟩ : ∃ slip x, slip.task = task ∧
      l.desk = some (slip, .left x result) := by
    have hworker := fits.worker
    simp only [workerSide, hs] at hworker
    exact hworker
  have hself : { l with desk := some (slip, .left x result) } = l := by rw [← desk]
  unfold Session.leave
  dsimp only
  generalize hlogged : (if result.isNone = true then s.logWithin slip.task .operationPanicked
    else s) = logged
  have logs : Ledger.Run S .empty logged.history l ∧ logged.workerSide = s.workerSide := by
    rw [← hlogged]
    split
    · rw [history_logWithin]
      exact ⟨run.snoc (.silent rfl), rfl⟩
    · exact ⟨run, rfl⟩
  refine booked_finish (.ran x result) fits there desk rfl (fun h => h) rfl ?_ ?_ _
  · rw [history_logWithin]
    show Ledger.Run S .empty _ { l with desk := some (slip, .left x result) }
    rw [hself]
    exact logs.1.snoc (.silent rfl)
  · exact logs.2

/-- The dispatch in front of those that wait is discarded. -/
theorem run_discard {l : Ledger} {slip : Slip} {slips : List Slip}
    (run : Ledger.Run S .empty s.history l) (free : l.desk = none)
    (first : l.waiting = slip :: slips) (stopping : l.stopping = true) :
    Ledger.Run S .empty (s.discard slip.task).history
      { l with desk := none, settled := l.settled ++ [(slip, .dropped)], waiting := slips } := by
  generalize hlogged : (({ s with tokens := s.tokens.cancel slip.task.token }.reach slip.task
    .discarded).log (.queuedDropped slip.task.id)) = logged
  have dropped : Ledger.Run S .empty logged.history
      { l with desk := some (slip, .dropped), waiting := slips } := by
    rw [← hlogged, history_log, history_reach]
    exact (run.snoc (.discarded s.clock free first stopping)).snoc (.silent rfl)
  obtain ⟨h, posts, hhistory, -, -, -⟩ :=
    send_posts logged (.event ⟨slip.task.id, .finished .cancelledBeforeStart⟩)
  unfold Session.discard
  rw [hlogged]
  show Ledger.Run S .empty (logged.send _).history _
  rw [hhistory]
  refine dropped.snoc (.finished ?_ ?_)
  · rfl
  · exact posts

theorem workerSide_discard (s : Session) (task : Task) : (s.discard task).workerSide =
    { s.workerSide with tokens := s.tokens.cancel task.token } := by
  unfold Session.discard emit
  obtain ⟨h, -, -, hside, -, -⟩ := send_posts
    (({ s with tokens := s.tokens.cancel task.token }.reach task .discarded).log
      (.queuedDropped task.id)) (.event ⟨task.id, .finished .cancelledBeforeStart⟩)
  rw [hside]
  rfl

/-- All that waits is discarded in order. While that is done the ledger is ahead of the inbox, of
which only `tasks` count. -/
theorem run_discards {l : Ledger} (tasks : List Task) (run : Ledger.Run S .empty s.history l)
    (fits : Fits S { s.workerSide with inbox := { s.inbox with waiting := tasks } } l)
    (idle : s.stage = .idle) (stopping : s.inbox.stopping = true) :
    ∃ m, Ledger.Run S .empty (tasks.foldl Session.discard s).history m ∧
      Fits S { (tasks.foldl Session.discard s).workerSide with
        inbox := { s.inbox with waiting := [] } } m := by
  induction tasks generalizing s l with
  | nil => exact ⟨l, run, fits⟩
  | cons task rest ih =>
    have there : s.stage.isOver = false := by rw [idle]; rfl
    have free : l.desk = none := by
      have hworker := fits.worker
      simp only [workerSide, idle] at hworker
      exact hworker
    obtain ⟨slip, slips, hslips, rfl, hrest⟩ := List.map_eq_cons_iff.1 (fits.queue there)
    have moved := Ledger.moved_dropped free hslips
    have hside := workerSide_discard s slip.task
    have known : Known s.handles s.nextId (s.tokens.cancel slip.task.token)
        { l with desk := none, settled := l.settled ++ [(slip, .dropped)], waiting := slips } :=
      fits.known.discard moved.slip_mem moved.accepted rfl (moved.mem_dropped rfl rfl) rfl
    have next := fits.moved_of_known moved .idle rest s.constructed known (fun h => by cases h)
      there rfl rfl hrest rfl
    have hidle : (s.discard slip.task).stage = .idle :=
      (congrArg WorkerSide.stage hside).trans idle
    have hinbox : (s.discard slip.task).inbox = s.inbox := congrArg WorkerSide.inbox hside
    have hfits : Fits S { (s.discard slip.task).workerSide with
        inbox := { (s.discard slip.task).inbox with waiting := rest } }
        { l with desk := none, settled := l.settled ++ [(slip, .dropped)], waiting := slips } := by
      rw [hside, hinbox]
      have hstage : s.workerSide.stage = .idle := idle
      rw [← hstage] at next
      exact next
    have later := ih (run_discard run free hslips (fits.stopping.trans stopping)) hfits hidle
      (by rw [hinbox]; exact stopping)
    rw [hinbox] at later
    exact later

theorem Booked.windDown (booked : Booked S s) (idle : s.stage = .idle)
    (stopping : s.inbox.stopping = true) : Booked S s.windDown := by
  obtain ⟨⟨l, run, fits⟩, -⟩ := booked
  obtain ⟨m, hrun, hfits⟩ := run_discards s.inbox.waiting run fits idle stopping
  have hside : ∀ (tasks : List Task) (u : Session),
      (tasks.foldl Session.discard u).workerSide =
        { u.workerSide with tokens := (tasks.foldl Session.discard u).tokens } := by
    intro tasks
    induction tasks with
    | nil => exact fun u => rfl
    | cons task rest ih =>
      intro u
      rw [List.foldl_cons, ih (u.discard task), workerSide_discard]
  have hall := hside s.inbox.waiting s
  unfold Session.windDown
  generalize s.inbox.waiting.foldl Session.discard s = u at hrun hfits hall
  have hstage : u.stage = .idle := (congrArg WorkerSide.stage hall).trans idle
  have hinbox : u.inbox = s.inbox := congrArg WorkerSide.inbox hall
  refine ⟨⟨m, hrun, ?_⟩, fun h => by cases h⟩
  have hend := hfits.end hstage rfl stopping
  rw [← hinbox] at hend
  exact hend

theorem Booked.logShutdown (booked : Booked S s) : Booked S s.logShutdown :=
  logShutdown_induct booked (fun _ booked => booked.log _) fun _ booked => booked.log _

theorem Booked.finishShutdown (booked : Booked S s) (closing : s.owner = .closing) :
    Booked S s.finishShutdown := by
  obtain ⟨⟨l, run, fits⟩, dead⟩ := booked
  have hstopping : s.inbox.stopping = true := fits.held.2 (by simp [workerSide, closing])
  have gone : Booked S { s with owner := .gone } :=
    ⟨⟨l, run, ⟨fits.opened, fits.late, fits.torn, fits.stopping,
      ⟨(fun _ h => by cases h), fun _ => hstopping⟩, fits.closed, fits.ended, fits.known, fits.kept,
      fits.made, fits.queue, fits.worker⟩⟩, dead⟩
  exact gone.logShutdown.silent rfl

theorem Booked.advance (booked : Booked S s) (h : s.advance? S = some t) : Booked S t := by
  cases advance_cases h with
  | windDown idle stopping => exact booked.windDown idle stopping
  | take idle going first => exact booked.take idle going first
  | check waits =>
    have turned : Booked S { s with turn := .resumed } := booked.frame rfl rfl id
    exact turned.check waits
  | construct ready => exact booked.construct ready
  | endBody runs => exact booked.ends runs rfl
  | bodyStep runs => exact booked.bodyStep runs
  | leave leaves => exact booked.leave leaves
  | finishShutdown _ closing => exact booked.finishShutdown closing

/-- Whatever is done next, by delivery, by the worker or by the clock. -/
theorem Booked.next {limit : Option Nat} (booked : Booked S s) (h : s.next? S limit = some t) :
    Booked S t := by
  cases next_cases h with
  | delivered => exact booked.deliverRound
  | woke => exact booked.frame rfl rfl id
  | worked _ works => exact booked.advance works

theorem Booked.run (limit : Option Nat) (booked : Booked S s) : Booked S (s.run S limit) := by
  fun_induction Session.run S limit s with
  | case1 s _ => exact booked
  | case2 s t next ih => exact ih (booked.next next)

theorem Booked.shutdown (booked : Booked S s) : Booked S (s.shutdown S).1 := by
  have signalled : Booked S { s.signalStop .gone with turn := .first } :=
    (booked.signalStop .gone (by decide)).frame rfl rfl id
  have ran := signalled.run (some (s.clock + patience))
  unfold Session.shutdown
  dsimp only
  split
  · exact ran.logShutdown
  · exact ran.frame rfl rfl id

theorem Booked.teardown (booked : Booked S s) : Booked S s.teardown := by
  obtain ⟨⟨l, run, fits⟩, -⟩ := booked
  refine ⟨⟨{ l with torn := true }, ?_, ?_⟩, fun _ => ⟨(fun h => by cases h), rfl⟩⟩
  · show Ledger.Run S .empty (s.record .tornDown).history _
    rw [history_record]
    exact run.snoc .tornDown
  · have held : (if s.owner = .closing then Owner.gone else s.owner) = .held ↔ s.owner = .held := by
      cases s.owner <;> simp
    exact fits.tearDown held

/-- A signal goes through a sink that an operation has kept. -/
theorem Booked.through (booked : Booked S s) (sink : Nat) {signal : Signal}
    (unfinished : signal.isFinished = false) : Booked S (s.through sink signal).1 := by
  unfold Session.through
  cases hsink : s.sinkHeld sink with
  | none => exact booked
  | some id =>
    obtain ⟨⟨l, run, fits⟩, dead⟩ := booked
    have hmem : some id ∈ s.sinks := by
      unfold sinkHeld at hsink
      cases hget : s.sinks[sink]? with
      | none => simp [hget] at hsink
      | some held =>
        have hheld : held = some id := by simpa [hget] using hsink
        rw [← hheld]
        exact List.mem_of_getElem? hget
    obtain ⟨h, posts, hhistory, hside, hphase, -⟩ :=
      send_posts (s.record (.late ⟨id, signal⟩)) (.event ⟨id, signal⟩)
    have late := run.snoc (.late ⟨id, signal⟩)
    rw [← history_record] at late
    have sent := late.snoc (.through rfl posts (fits.kept id hmem) unfinished)
    rw [← hhistory] at sent
    have side : (s.record (.late ⟨id, signal⟩)).workerSide = s.workerSide := rfl
    refine ⟨⟨_, sent, ?_⟩, ?_⟩
    · show Fits S (((s.record (.late ⟨id, signal⟩)).send (.event ⟨id, signal⟩)).workerSide) _
      rw [hside]
      exact fits.hear ⟨id, signal⟩
    · intro hdead
      have silenced := dead ((congrArg WorkerSide.stage hside).symm.trans hdead)
      exact ⟨hphase.1 ▸ silenced.1, hphase.2.trans silenced.2⟩

theorem Booked.release (booked : Booked S s) (sink : Nat) :
    Booked S { s with sinks := s.sinks.set sink none } := by
  obtain ⟨⟨l, run, fits⟩, dead⟩ := booked
  refine ⟨⟨l, run, ⟨fits.opened, fits.late, fits.torn, fits.stopping, fits.held, fits.closed,
    fits.ended, fits.known, fun id hid => ?_, fits.made, fits.queue, fits.worker⟩⟩, dead⟩
  rcases List.mem_or_eq_of_mem_set hid with h | h
  · exact fits.kept id h
  · cases h

theorem Booked.step (booked : Booked S s) (step : CallerStep) : Booked S (s.step S step).1 := by
  cases step with
  | command command => exact booked.perform command
  | sleep duration =>
    simp only [Session.step]
    split
    · exact booked
    · split
      · exact booked
      · have turned : Booked S { s with turn := .first } := booked.frame rfl rfl id
        exact (turned.run _).frame rfl rfl id
  | shutdown =>
    simp only [Session.step]
    split
    · exact booked
    · split
      · exact booked.shutdown
      · exact booked
  | lateProgress sink update => exact booked.through sink rfl
  | latePrevent sink => exact booked.through sink rfl
  | release sink => exact booked.release sink
  | store step => exact booked.frame rfl rfl id
  | teardown => exact booked.teardown
  | unreadable fault => exact booked

theorem Booked.script (booked : Booked S s) (steps : List CallerStep) :
    Booked S (s.runScript S steps) := by
  induction steps generalizing s with
  | nil => exact booked
  | cons step rest ih => exact ih (booked.step step)

/-- Every session that a script leads to keeps its ledger. -/
theorem booked_runScript (S : Setup) (steps : List CallerStep) :
    Booked S (start.runScript S steps) :=
  booked_start.script steps

end Booked

end Session
end SerialDispatch
