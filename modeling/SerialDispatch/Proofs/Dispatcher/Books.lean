import SerialDispatch.Proofs.Dispatcher.Dealings
import SerialDispatch.Proofs.Dispatcher.Handles

/-!
# Sessions that keep their ledger

A session is `Booked` when its history leads to a ledger that fits the worker's side of the session:
the inbox, the stage of the worker, the handles, the tokens and the kept sinks. Commands keep it so,
whoever gives them, and so does delivery; main statements: `Booked.perform`, `Booked.deliverRound`.
-/
namespace SerialDispatch

/-- What the ledger of a session is about. -/
structure WorkerSide where
  owner : Owner
  nextId : DispatchId
  tokens : TokenPool
  handles : List (DispatchId × Token)
  inbox : Inbox Task
  stage : Stage
  constructed : Nat
  sinks : List (Option DispatchId)

def Session.workerSide (s : Session) : WorkerSide where
  owner := s.owner
  nextId := s.nextId
  tokens := s.tokens
  handles := s.handles
  inbox := s.inbox
  stage := s.stage
  constructed := s.constructed
  sinks := s.sinks

/-- The steps `rest` are what is left of the body of a dispatch: whatever its operation sees from
now on, it has sent what came before them, and goes on and ends as they do. -/
def Execution.Leaves (S : Setup) (slip : Slip) (x : Execution) (rest : List BodyStep) : Prop :=
  ∀ looks, BodyStep.evaluate slip.kind (S.body slip.task.request) (x.looks ++ looks) =
    (x.own ++ (BodyStep.evaluate slip.kind rest looks).1,
      (BodyStep.evaluate slip.kind rest looks).2)

/-- What is at the desk of the ledger and behind it, by the stage of the worker. -/
def Stage.Fits (S : Setup) (desk : Option (Slip × Place)) (waiting : List Slip) : Stage → Prop
  | .idle => desk = none
  | .window task _ => ∃ slip, slip.task = task ∧ desk = some (slip, .taken)
  | .ready task => ∃ slip, slip.task = task ∧ desk = some (slip, .admitted)
  | .running task n rest _ => ∃ slip x, slip.task = task ∧ desk = some (slip, .busy x) ∧
      x.number = n ∧ x.Leaves S slip rest
  | .leaving task result => ∃ slip x, slip.task = task ∧ desk = some (slip, .left x result)
  | .ended => desk = none ∧ waiting = []
  | .dead => True

structure Fits (S : Setup) (w : WorkerSide) (l : Ledger) : Prop where
  opened : l.opened = none
  late : l.late = none
  torn : l.torn = true ↔ w.stage = .dead
  stopping : l.stopping = w.inbox.stopping
  held : w.inbox.stopping = true ↔ w.owner ≠ .held
  closed : w.inbox.closed = w.stage.isOver
  ended : w.stage = .ended → w.inbox.stopping = true
  known : Known w.handles w.nextId w.tokens l
  kept : ∀ id, some id ∈ w.sinks → l.Begun id
  made : w.constructed = l.made
  queue : w.stage.isOver = false → l.waiting.map Slip.task = w.inbox.waiting
  worker : w.stage.Fits S l.desk l.waiting

/-- No message is taken any more, and there is nothing left to run on. -/
def Session.Silenced (s : Session) : Prop := s.phase ≠ .alive ∧ s.alive = false

/-- The history of a session leads to a ledger that fits it. -/
def Session.Booked (S : Setup) (s : Session) : Prop :=
  (∃ l, Ledger.Run S .empty s.history l ∧ Fits S s.workerSide l) ∧
    (s.stage = .dead → s.Silenced)

section Fits

variable {S : Setup} {w : WorkerSide} {l m : Ledger}

theorem Fits.not_dead (fits : Fits S w l) (there : w.stage.isOver = false) : l.torn = false := by
  cases ht : l.torn with
  | false => rfl
  | true =>
    rw [fits.torn.1 ht] at there
    cases there

/-- A worker that has come to its end leaves nothing undone. -/
theorem Fits.done (fits : Fits S w l) (ended : w.stage = .ended) :
    l.desk = none ∧ l.waiting = [] ∧ l.torn = false := by
  have hworker := fits.worker
  rw [ended] at hworker
  refine ⟨hworker.1, hworker.2, ?_⟩
  cases ht : l.torn with
  | false => rfl
  | true =>
    have hdead := fits.torn.1 ht
    rw [ended] at hdead
    cases hdead

/-- A dispatch at the desk that is not being discarded was not discarded. -/
theorem Ledger.Ordered.not_dropped (ordered : l.Ordered) {slip : Slip} {p : Place}
    (desk : l.desk = some (slip, p)) (hp : p.isDropped = false) : slip.id ∉ l.dropped := by
  intro hd
  obtain ⟨entry, hentry, hid⟩ := List.mem_map.1 hd
  obtain ⟨hroll, hdropped⟩ := List.mem_filter.1 hentry
  have hself : (slip, Stand.at p) ∈ l.roll := by simp [Ledger.roll, desk]
  have heq := ordered.unique hroll hself hid
  rw [heq] at hdropped
  simp [Stand.isDropped, Stand.place?, hp] at hdropped

/-- The worker sees the token of the dispatch at its desk raised if that was cancelled. -/
theorem Fits.flag (fits : Fits S w l) (ordered : l.Ordered) {slip : Slip} {p : Place}
    (desk : l.desk = some (slip, p)) (hp : p.isDropped = false) :
    w.tokens.isCancelled slip.task.token = decide (slip.id ∈ l.cancelled) := by
  have hslip : slip ∈ l.accepted := by simp [Ledger.accepted, Ledger.roll, desk]
  have hnot : decide (slip.id ∈ l.dropped) = false :=
    decide_eq_false (ordered.not_dropped desk hp)
  rw [fits.known.flags slip hslip, hnot, Bool.or_false]

/-- A dispatch is taken in under a fresh id and a fresh token. -/
theorem Fits.submit (fits : Fits S w l) (slip : Slip) (hid : slip.id = w.nextId)
    (htoken : slip.task.token = w.tokens.fresh)
    (there : w.stage.isOver = false) :
    Fits S { w with
      nextId := w.nextId + 1
      tokens := w.tokens.grow
      inbox := { w.inbox with waiting := w.inbox.waiting ++ [slip.task] }
      handles := w.handles ++ [slip.handle] }
      { l with waiting := l.waiting ++ [slip] } := by
  have hroll : Ledger.roll { l with waiting := l.waiting ++ [slip] } =
      l.roll ++ [(slip, .waiting)] := by simp [Ledger.roll]
  refine ⟨fits.opened, fits.late, fits.torn, fits.stopping, fits.held, fits.closed, fits.ended, ?_,
    ?_, ?_, ?_, ?_⟩
  · refine fits.known.submit hid htoken (fits.not_dead there) ?_ rfl ?_
    · simp [Ledger.accepted, hroll]
    · simp [Ledger.dropped, hroll, Stand.isDropped, Stand.place?]
  · intro id hid'
    obtain ⟨⟨other, hother, heq⟩, hall⟩ := fits.kept id hid'
    refine ⟨⟨other, by simp [Ledger.accepted, hroll] at hother ⊢; exact .inl hother, heq⟩, ?_⟩
    intro entry hentry hentryId
    rw [hroll] at hentry
    rcases List.mem_append.1 hentry with hold | hnew
    · exact hall entry hold hentryId
    · rw [List.mem_singleton.1 hnew] at hentryId
      have hlt := (fits.known.fresh _ (fits.known.mem_handles hother)).1
      exact absurd (heq.trans (hentryId.symm.trans hid)) (Nat.ne_of_lt hlt)
  · have hmade : Ledger.made { l with waiting := l.waiting ++ [slip] } = l.made := by
      simp [Ledger.made, hroll, Stand.number?, Stand.place?]
    rw [hmade]
    exact fits.made
  · intro _
    rw [List.map_append, fits.queue there]
    rfl
  · have hworker := fits.worker
    cases hs : w.stage with
    | ended => simp [hs, Stage.isOver] at there
    | _ => rw [hs] at hworker; exact hworker

/-- A start is refused after the end of everything. -/
theorem Fits.refuse (fits : Fits S w l) (torn : l.torn = true) :
    Fits S { w with
      nextId := w.nextId + 1
      tokens := w.tokens.grow.cancel w.tokens.fresh
      handles := w.handles ++ [(w.nextId, w.tokens.fresh)] } l :=
  ⟨fits.opened, fits.late, fits.torn, fits.stopping, fits.held, fits.closed, fits.ended,
    fits.known.refuse torn, fits.kept, fits.made, fits.queue, fits.worker⟩

/-- An id and a token are used up. -/
theorem Fits.allot (fits : Fits S w l) :
    Fits S { w with nextId := w.nextId + 1, tokens := w.tokens.grow } l :=
  ⟨fits.opened, fits.late, fits.torn, fits.stopping, fits.held, fits.closed, fits.ended,
    fits.known.allot, fits.kept, fits.made, fits.queue, fits.worker⟩

end Fits

namespace Session

section Booked

variable {S : Setup} {s t : Session}

/-- A run goes on until there is nothing left to be done. -/
theorem run_next_none (S : Setup) (limit : Option Nat) (s : Session) :
    (s.run S limit).next? S limit = none := by
  fun_induction Session.run S limit s with
  | case1 s stops => exact stops
  | case2 s t next ih => exact ih

theorem run_of_rest {limit : Option Nat} (stops : s.next? S limit = none) : s.run S limit = s := by
  rw [run, stops]

theorem run_of_next {limit : Option Nat} (next : s.next? S limit = some t) :
    s.run S limit = t.run S limit := by
  rw [run, next]

theorem booked_start : Booked S start := by
  refine ⟨⟨.empty, .nil, ?_⟩, fun h => by cases h⟩
  exact ⟨rfl, rfl, by simp [Ledger.empty, workerSide, start], rfl,
    by simp [workerSide, start, Inbox.empty], rfl, (fun h => by cases h), Known.empty,
    by simp [workerSide, start], rfl, fun _ => rfl, rfl⟩

/-- What the ledger is not about may change. -/
theorem Booked.frame (booked : Booked S s) (side : t.workerSide = s.workerSide)
    (history : t.history = s.history) (silenced : s.Silenced → t.Silenced) :
    Booked S t := by
  obtain ⟨⟨l, run, fits⟩, dead⟩ := booked
  refine ⟨⟨l, ?_, ?_⟩, fun h => silenced (dead ?_)⟩
  · rw [history]
    exact run
  · rw [side]
    exact fits
  · exact (congrArg WorkerSide.stage side).symm.trans h

theorem Booked.silent (booked : Booked S s) {h : Happening} (silent : h.isSilent = true) :
    Booked S (s.record h) := by
  obtain ⟨⟨l, run, fits⟩, dead⟩ := booked
  refine ⟨⟨l, ?_, fits⟩, dead⟩
  rw [history_record]
  exact run.snoc (.silent silent)

theorem Booked.log (booked : Booked S s) (event : LogEvent) : Booked S (s.log event) :=
  booked.silent rfl

theorem Booked.logWithin (booked : Booked S s) (task : Task) (event : LogEvent) :
    Booked S (s.logWithin task event) :=
  booked.silent rfl

/-- A message is sent, or lost, and that is all. -/
theorem send_posts (s : Session) (m : Message Command) :
    ∃ h, h.message? = some m ∧ (s.send m).history = s.history ++ [h] ∧
      (s.send m).workerSide = s.workerSide ∧
      ((s.send m).phase = s.phase ∧ (s.send m).alive = s.alive) ∧
      (s.phase ≠ .alive → h = .lost m) := by
  unfold send
  by_cases hp : s.phase = .alive
  · rw [if_pos hp]
    exact ⟨.sent m, rfl, history_record _ _, rfl, ⟨rfl, rfl⟩, fun h => absurd hp h⟩
  · rw [if_neg hp]
    exact ⟨.lost m, rfl, history_record _ _, rfl, ⟨rfl, rfl⟩, fun _ => rfl⟩

/-- A cancellation is marked in the ledger; the token is raised, if it is not raised already. -/
theorem Booked.cancel (booked : Booked S s) (handle : Nat) : Booked S (s.cancel handle).1 := by
  unfold Session.cancel
  cases hh : s.handles[handle]? with
  | none => exact booked
  | some pair =>
    obtain ⟨id, token⟩ := pair
    have hmem : (id, token) ∈ s.handles := List.mem_of_getElem? hh
    obtain ⟨⟨l, run, fits⟩, dead⟩ := booked
    -- Both ways the history says the same; they differ in the pool only.
    have marked : ∀ pool : TokenPool, pool.fresh = s.tokens.fresh →
        (∀ t, pool.isCancelled t = (s.tokens.isCancelled t || decide (t = token))) →
        Booked S ({ s with tokens := pool }.record (.cancelled id)) := by
      intro pool hfresh hpool
      refine ⟨⟨{ l with cancelled := l.cancelled ++ [id] }, ?_, ?_⟩, dead⟩
      · rw [history_record]
        exact run.snoc (.cancelled id)
      · exact ⟨fits.opened, fits.late, fits.torn, fits.stopping, fits.held, fits.closed,
          fits.ended, fits.known.cancel hmem hfresh hpool, fits.kept, fits.made, fits.queue,
          fits.worker⟩
    by_cases hc : s.tokens.isCancelled token = true
    · simp only [hc, if_true]
      exact marked s.tokens rfl fun t => TokenPool.isCancelled_of_cancelled _ _ _ hc
    · simp only [hc, Bool.false_eq_true, if_false]
      have hlt := (fits.known.fresh _ hmem).2
      exact (marked (s.tokens.cancel token) (TokenPool.fresh_cancel _ _)
        fun t => TokenPool.isCancelled_cancel _ _ _ hlt).log _

/-- The signal to stop goes with the dispatcher being held no more. -/
theorem Booked.signalStop (booked : Booked S s) (owner : Owner) (away : owner ≠ .held) :
    Booked S (s.signalStop owner) := by
  obtain ⟨⟨l, run, fits⟩, dead⟩ := booked
  refine ⟨⟨{ l with stopping := true }, ?_, ?_⟩, dead⟩
  · rw [Session.signalStop, history_record]
    exact run.snoc .stopping
  · exact ⟨fits.opened, fits.late, fits.torn, rfl, ⟨fun _ => away, fun _ => rfl⟩, fits.closed,
      fun _ => rfl, fits.known.congr rfl rfl rfl rfl, fits.kept, fits.made, fits.queue, fits.worker⟩

theorem history_reach (s : Session) (task : Task) (milestone : Milestone) :
    (s.reach task milestone).history = s.history ++ [.reached task milestone s.clock] :=
  history_record _ _

theorem history_log (s : Session) (event : LogEvent) :
    (s.log event).history = s.history ++ [.log ⟨s.clock, none, event⟩] := history_record _ _

/-- A session whose worker is over although nobody has signalled it to stop has vanished. -/
theorem dead_of_isOver {l : Ledger} (fits : Fits S s.workerSide l)
    (going : s.inbox.stopping = false) (isOver : s.stage.isOver = true) : s.stage = .dead := by
  cases hs : s.stage with
  | ended =>
    have hstopping : s.inbox.stopping = true := fits.ended hs
    rw [going] at hstopping
    cases hstopping
  | dead => rfl
  | _ => simp [hs, Stage.isOver] at isOver

/-- The callback of a dispatch that is to be submitted was sent ahead: id and token are used up. -/
structure Opened (S : Setup) (s u : Session) (l : Ledger) (callback : Nat) : Prop where
  run : Ledger.Run S .empty u.history { l with opened := some (s.nextId, callback) }
  side : u.workerSide = s.allot.workerSide
  footing : u.phase = s.phase ∧ u.alive = s.alive

theorem opened_send {l : Ledger} (run : Ledger.Run S .empty s.history l)
    (fits : Fits S s.workerSide l) (callback : Callback Command) :
    Opened S s ((s.allot).send (.attach s.nextId callback)) l callback.number := by
  obtain ⟨attach, posts, hhistory, hside, hphase, -⟩ :=
    send_posts s.allot (.attach s.nextId callback)
  refine ⟨?_, hside, hphase⟩
  rw [hhistory]
  refine run.snoc (.attached posts fits.opened fun slip hslip => ?_)
  exact (fits.known.fresh _ (fits.known.mem_handles hslip)).1

theorem Opened.submit_taken {u : Session} {l : Ledger} {callback : Nat} {task : Task}
    (opened : Opened S s u l callback) (fits : Fits S s.workerSide l)
    (there : s.stage.isOver = false)
    (going : s.inbox.stopping = false) (hid : task.id = s.nextId)
    (htoken : task.token = s.tokens.fresh) : Booked S (u.submit callback task) := by
  obtain ⟨run, hside, hphase⟩ := opened
  have hinbox : u.inbox = s.inbox := congrArg WorkerSide.inbox hside
  have hclosed : s.inbox.closed = false := fits.closed.trans there
  have htaken : u.inbox.submit task =
      .ok { u.inbox with waiting := u.inbox.waiting ++ [task] } :=
    Inbox.submit_eq_ok.2 ⟨hinbox ▸ going, hinbox ▸ hclosed, rfl⟩
  have hsubmit : u.submit callback task =
      { (({ u with inbox := { u.inbox with waiting := u.inbox.waiting ++ [task] } }.reach task
          (.submitted callback)).log (.dispatchQueued task.id task.request.kind)) with
        handles := u.handles ++ [(task.id, task.token)] } := by
    unfold submit
    rw [htaken]
    rfl
  rw [hsubmit]
  have hstage : u.stage = s.stage := congrArg WorkerSide.stage hside
  refine ⟨⟨{ l with waiting := l.waiting ++ [⟨task, callback⟩] }, ?_, ?_⟩, ?_⟩
  · have taken := run.snoc (.submitted ⟨task, callback⟩ u.clock
      (by rw [Slip.id, hid]) (fits.stopping.trans going) (fits.not_dead there))
    have hnone : { l with opened := none, waiting := l.waiting ++ [⟨task, callback⟩] } =
        { l with waiting := l.waiting ++ [(⟨task, callback⟩ : Slip)] } := by rw [← fits.opened]
    rw [hnone] at taken
    show Ledger.Run S .empty
      (({ u with inbox := _ }.reach task (.submitted callback)).log _).history _
    rw [history_log, history_reach]
    exact taken.snoc (.silent rfl)
  · have submitted := fits.submit ⟨task, callback⟩ hid htoken there
    have hside' : { (({ u with
        inbox := { u.inbox with waiting := u.inbox.waiting ++ [task] } }.reach task
          (.submitted callback)).log (.dispatchQueued task.id task.request.kind)) with
        handles := u.handles ++ [(task.id, task.token)] }.workerSide =
        { s.workerSide with
          nextId := s.nextId + 1
          tokens := s.tokens.grow
          inbox := { s.inbox with waiting := s.inbox.waiting ++ [task] }
          handles := s.handles ++ [(task.id, task.token)] } := by
      calc _ = { u.workerSide with
              inbox := { u.workerSide.inbox with waiting := u.workerSide.inbox.waiting ++ [task] }
              handles := u.workerSide.handles ++ [(task.id, task.token)] } := rfl
        _ = _ := by rw [hside]; rfl
    rw [hside']
    exact submitted
  · intro hs
    have hdead : s.stage = .dead := hstage.symm.trans hs
    rw [hdead] at there
    cases there

theorem Opened.submit_refused {u : Session} {l : Ledger} {callback : Nat} {task : Task}
    (opened : Opened S s u l callback) (fits : Fits S s.workerSide l) (gone : s.stage = .dead)
    (silenced : s.Silenced)
    (going : s.inbox.stopping = false) (hid : task.id = s.nextId)
    (htoken : task.token = s.tokens.fresh) : Booked S (u.submit callback task) := by
  obtain ⟨run, hside, hphase⟩ := opened
  have hinbox : u.inbox = s.inbox := congrArg WorkerSide.inbox hside
  have hclosed : s.inbox.closed = true :=
    fits.closed.trans (by simp [workerSide, gone, Stage.isOver])
  have hrefused : u.inbox.submit task = .error .closed :=
    Inbox.submit_eq_error.2 (.inr ⟨hinbox ▸ going, hinbox ▸ hclosed, rfl⟩)
  generalize hlogged : u.log (.dispatchRefused task.id task.request.kind .closed) = v
  have hsubmit : u.submit callback task =
      { v.refuse task.id task.token with
        handles := (v.refuse task.id task.token).handles ++ [(task.id, task.token)] } := by
    unfold submit
    rw [hrefused, ← hlogged]
  have hv : v.workerSide = s.allot.workerSide ∧ v.phase = s.phase ∧ v.alive = s.alive := by
    rw [← hlogged]
    exact ⟨hside, hphase⟩
  have logged : Ledger.Run S .empty v.history { l with opened := some (s.nextId, callback) } := by
    rw [← hlogged, history_log]
    exact run.snoc (.silent rfl)
  obtain ⟨h, -, hlast, hvside, hvphase, hlost⟩ := send_posts
    { v with tokens := v.tokens.cancel task.token }
    (.event ⟨task.id, .finished .cancelledBeforeStart⟩)
  have hvsilenced : v.Silenced := ⟨hv.2.1 ▸ silenced.1, hv.2.2.trans silenced.2⟩
  rw [hsubmit]
  refine ⟨⟨l, ?_, ?_⟩, fun _ => ?_⟩
  · have refused := logged.snoc (.refused rfl (fits.torn.2 gone))
    have hnone : { l with opened := none } = l := by rw [← fits.opened]
    rw [hnone] at refused
    show Ledger.Run S .empty ({ v with tokens := _ }.send _).history _
    rw [hlast, hlost hvsilenced.1, hid]
    exact refused
  · generalize hsent : { v with tokens := v.tokens.cancel task.token }.send
      (.event ⟨task.id, .finished .cancelledBeforeStart⟩) = t at hvside
    have hside' : { v.refuse task.id task.token with
        handles := (v.refuse task.id task.token).handles ++ [(task.id, task.token)] }.workerSide =
        { s.workerSide with
          nextId := s.nextId + 1
          tokens := s.tokens.grow.cancel s.tokens.fresh
          handles := s.handles ++ [(s.nextId, s.tokens.fresh)] } := by
      calc _ = { t.workerSide with
              handles := t.workerSide.handles ++ [(task.id, task.token)] } := by rw [← hsent]; rfl
        _ = { v.workerSide with
              tokens := v.workerSide.tokens.cancel task.token
              handles := v.workerSide.handles ++ [(task.id, task.token)] } := by rw [hvside]; rfl
        _ = _ := by rw [hv.1, hid, htoken]; rfl
    rw [hside']
    exact fits.refuse (fits.torn.2 gone)
  · exact ⟨hvphase.1 ▸ hvsilenced.1, hvphase.2.trans hvsilenced.2⟩

theorem Booked.startRequest (booked : Booked S s) (held : s.owner = .held) (request : Request)
    (input : CryptoInput) (surface : Surface) (callback : Callback Command) :
    Booked S (s.startRequest S request input surface callback).1 := by
  obtain ⟨⟨l, run, fits⟩, dead⟩ := booked
  unfold Session.startRequest
  cases S.registry.resolve request.kind with
  | error refusal => exact ⟨⟨l, run, fits⟩, dead⟩
  | ok factory =>
    by_cases hsurface : surface = .panics
    · simp only [hsurface, if_true]
      exact ⟨⟨l, run, fits.allot⟩, dead⟩
    · simp only [hsurface, if_false]
      have hgoing : s.inbox.stopping = false := by
        cases hs : s.inbox.stopping with
        | false => rfl
        | true => exact absurd held (fits.held.1 hs)
      have opened := opened_send run fits callback
      by_cases isOver : s.stage.isOver = true
      · have gone := dead_of_isOver fits hgoing isOver
        exact opened.submit_refused fits gone (dead gone) hgoing rfl rfl
      · exact opened.submit_taken fits (by simpa using isOver) hgoing rfl rfl

/-- Commands keep the ledger, whoever gives them. -/
theorem Booked.perform (booked : Booked S s) (c : Command) : Booked S (s.perform S c).1 := by
  cases c with
  | start request input surface panicsOn reactions =>
    simp only [Session.perform]
    by_cases hlimit : S.startLimit ≤ s.starts
    · rw [if_pos hlimit]
      exact booked
    · rw [if_neg hlimit]
      have counted : Booked S { s with starts := s.starts + 1 } := booked.frame rfl rfl id
      by_cases held : s.owner = .held
      · rw [if_pos held]
        exact counted.startRequest held _ _ _ _
      · rw [if_neg held]
        exact counted
  | cancel handle => exact booked.cancel handle
  | drop =>
    simp only [Session.perform]
    by_cases held : s.owner = .held
    · rw [if_pos held]
      exact booked.signalStop .gone (by decide)
    · rw [if_neg held]
      exact booked
  | unreadable word fault => exact booked

theorem Booked.react (booked : Booked S s) (callback : Nat) (c : Command) :
    Booked S (s.react S callback c) :=
  (booked.perform c).silent rfl

theorem Booked.deliverEvents (booked : Booked S s) (events : List Event) :
    Booked S (s.deliverEvents S events) := by
  refine lift_parts (R := fun u v => Booked S u → Booked S v) (carrying_deliverEvents S s events)
    (fun _ => id) (fun first second => second ∘ first) (fun {u v} carries kept => ?_) booked
  cases carries with
  | unclaimed e => exact kept.log _
  | called callback e =>
    have called : Booked S { u with callbacks := u.callbacks.after e } := kept.frame rfl rfl id
    exact called.silent rfl
  | panicked => exact kept.frame rfl rfl fun silenced => ⟨(fun h => by cases h), silenced.2⟩
  | reacted callback c => exact kept.react callback c

/-- Delivery keeps the ledger, whatever the callbacks do. -/
theorem Booked.deliverRound (booked : Booked S s) : Booked S (s.deliverRound S) := by
  have taken : Booked S { s with
      mailbox := (Message.nextBatch S.config.coalescing s.mailbox).2
      callbacks :=
        Message.registered (Message.nextBatch S.config.coalescing s.mailbox).1 s.callbacks
      turn := s.turn.delivered } := booked.frame rfl rfl id
  exact taken.deliverEvents _

end Booked

end Session
end SerialDispatch
