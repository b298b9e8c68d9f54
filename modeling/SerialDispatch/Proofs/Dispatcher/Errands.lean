import SerialDispatch.Proofs.Dispatcher.Passing

/-!
# What the worker still has to do

An operation may be so simple that its body alone says what comes of it: it sends signals, saves
keyrings, takes time, looks whether it is cancelled, and finishes. If all operations are simple and
no callback reacts or panics, then what a session will bring about is known as soon as nobody gives
commands any more: the errands of its worker. Every step of the worker does the first of them, and a
run does them all; main statement: `Session.Simple.run`.
-/
namespace SerialDispatch

/-- Something that a worker has to do. -/
inductive Errand where
  | send (e : Event)
  | save (id : UInt64) (keyring : Keyring)
  | log (event : LogEvent)

namespace Errand

def message? : Errand → Option (Message Command)
  | .send e => some (.event e)
  | _ => none

def saved? : Errand → Option (UInt64 × Keyring)
  | .save id keyring => some (id, keyring)
  | _ => none

def logged? : Errand → Option LogEvent
  | .log event => some event
  | _ => none

end Errand

/-- What a session has brought about. -/
structure Yield where
  messages : List (Message Command)
  /-- What was logged, delivery and all debugging apart. -/
  logs : List LogEvent
  store : KeyStore

namespace Yield

def perform (y : Yield) : Errand → Yield
  | .send e => { y with messages := y.messages ++ [.event e] }
  | .save id keyring => { y with store := y.store.save id keyring }
  | .log event => { y with logs := y.logs ++ [event] }

def performAll (y : Yield) (errands : List Errand) : Yield := errands.foldl perform y

theorem performAll_append (y : Yield) (first second : List Errand) :
    y.performAll (first ++ second) = (y.performAll first).performAll second := List.foldl_append

/-- Errands of different sorts do not come into each other's way. -/
theorem performAll_eq (y : Yield) (errands : List Errand) : y.performAll errands =
    ⟨y.messages ++ errands.filterMap Errand.message?, y.logs ++ errands.filterMap Errand.logged?,
      (errands.filterMap Errand.saved?).foldl (fun store e => store.save e.1 e.2) y.store⟩ := by
  induction errands generalizing y with
  | nil => simp [performAll]
  | cons errand rest ih =>
    have first : y.performAll (errand :: rest) = (y.perform errand).performAll rest := rfl
    rw [first, ih]
    cases errand <;>
      simp [perform, List.filterMap_cons, Errand.message?, Errand.logged?, Errand.saved?]

end Yield

/-- Whether it is more than debugging. -/
def LogEvent.isLoud (e : LogEvent) : Bool := Severity.info.rank ≤ e.severity.rank

namespace Happening

/-- What is logged by caller or worker, debugging apart. -/
def loud? : Happening → Option LogEvent
  | .log entry => if entry.event.party ≠ .delivery && entry.event.isLoud then some entry.event
    else none
  | _ => none

/-- Whether an event was brought to its callback, or there was none to bring it to. -/
def isHearing : Happening → Bool
  | .told .. => true
  | .log ⟨_, _, .unclaimed ..⟩ => true
  | _ => false

/-- Whether an event came for which there was no callback. -/
def isUnclaimed : Happening → Bool
  | .log ⟨_, _, .unclaimed ..⟩ => true
  | _ => false

end Happening

def loudIn (history : List Happening) : List LogEvent := history.filterMap Happening.loud?

def hearingsIn (history : List Happening) : List Happening := history.filter Happening.isHearing

@[simp] theorem loudIn_append (history more : List Happening) :
    loudIn (history ++ more) = loudIn history ++ loudIn more := List.filterMap_append

@[simp] theorem hearingsIn_append (history more : List Happening) :
    hearingsIn (history ++ more) = hearingsIn history ++ hearingsIn more := List.filter_append ..

/-- Of the events that are delivered some are told to callbacks, and the others are unclaimed. -/
theorem length_hearingsIn (history : List Happening) : (hearingsIn history).length =
    (toldIn history).length + (history.filter Happening.isUnclaimed).length := by
  induction history with
  | nil => rfl
  | cons h rest ih =>
    have heard : (hearingsIn [h]).length =
        (toldIn [h]).length + ([h].filter Happening.isUnclaimed).length := by
      cases h with
      | log record =>
        obtain ⟨time, span, event⟩ := record
        cases event <;> rfl
      | _ => rfl
    rw [← List.singleton_append, hearingsIn_append, toldIn_append, List.filter_append,
      List.length_append, List.length_append, List.length_append, heard, ih]
    omega

/-- Neither panics nor reacts. -/
def Callback.IsPlain (c : Callback Command) : Prop := c.panicsOn = none ∧ c.reactions = []

def Message.IsPlain : Message Command → Prop
  | .attach _ c => c.IsPlain
  | .event _ => True

def Callbacks.ArePlain (cs : Callbacks Command) : Prop :=
  ∀ id c, cs.find? id = some c → c.IsPlain

/-- Whether nothing comes of the step but a signal, a keyring or an end. -/
def BodyStep.isSimple : BodyStep → Bool
  | .progress _ | .prevent | .work _ | .stopIfCancelled _ | .finish .. | .store (.save ..) => true
  | _ => false

/-- All operations are simple, and none panics when it is constructed. -/
structure Setup.IsSimple (S : Setup) : Prop where
  whole : ∀ n kind, S.breaks n kind = false
  body : ∀ request, ∀ step ∈ S.body request, step.isSimple = true

namespace Task

/-- What is left to do when the operation is over. -/
def ending (task : Task) (result : Result) : List Errand :=
  [.log (.operationComplete result.status), .send ⟨task.id, .finished (.completed result)⟩]

/-- What is left to do for an operation that is not cancelled, with these steps still to come. -/
def bodyErrands (task : Task) : List BodyStep → List Errand
  | [] => task.ending ⟨task.request.kind, .ok, []⟩
  | .progress update :: rest => .send ⟨task.id, .progress update⟩ :: task.bodyErrands rest
  | .prevent :: rest => .send ⟨task.id, .preventCancel⟩ :: task.bodyErrands rest
  | .store (.save id keyring) :: rest => .save id keyring :: task.bodyErrands rest
  | .finish kind status log :: _ => task.ending ⟨kind.getD task.request.kind, status, log⟩
  | _ :: rest => task.bodyErrands rest

/-- What is to be done for a dispatch that waits. -/
def errands (S : Setup) (pool : TokenPool) (task : Task) : List Errand :=
  if pool.isCancelled task.token then [.send ⟨task.id, .finished .cancelledBeforeStart⟩]
  else task.bodyErrands (S.body task.request)

end Task

namespace Stage

def errands (S : Setup) (pool : TokenPool) : Stage → List Errand
  | .window task _ => task.errands S pool
  | .ready task => task.bodyErrands (S.body task.request)
  | .running task _ rest _ => task.bodyErrands rest
  | .leaving task (some result) => task.ending result
  | _ => []

/-- The worker is at a simple operation that is not cancelled, or on the way to it. -/
def IsSimple (pool : TokenPool) : Stage → Prop
  | .idle | .window .. => True
  | .ready task => pool.isCancelled task.token = false
  | .running task _ rest _ =>
    pool.isCancelled task.token = false ∧ ∀ step ∈ rest, step.isSimple = true
  | .leaving _ result => result.isSome = true
  | .ended | .dead => False

theorem IsSimple.going {pool : TokenPool} {stage : Stage} (simple : stage.IsSimple pool) :
    stage.isOver = false := by
  cases stage with
  | ended | dead => cases simple
  | _ => rfl

end Stage

namespace Session

variable {S : Setup} {s t u : Session} {task : Task} {limit : Option Nat}

def yield (s : Session) : Yield := ⟨messagesIn s.history, loudIn s.history, s.store⟩

/-- What the worker has to do, for the dispatch it is at and for those that wait. -/
def errands (S : Setup) (s : Session) : List Errand :=
  s.stage.errands S s.tokens ++ s.inbox.waiting.flatMap (Task.errands S s.tokens)

/-- From one session to the other the worker did these errands. -/
structure Works (s t : Session) (done : List Errand) : Prop where
  yield : t.yield = s.yield.performAll done
  mailbox : t.mailbox = s.mailbox ++ done.filterMap Errand.message?
  hearings : hearingsIn t.history = hearingsIn s.history
  phase : t.phase = s.phase
  callbacks : t.callbacks = s.callbacks
  tokens : t.tokens = s.tokens
  stopping : t.inbox.stopping = s.inbox.stopping
  sinks : t.sinks = s.sinks
  owner : t.owner = s.owner

namespace Works

variable {done more : List Errand}

theorem trans (first : Works s t done) (second : Works t u more) : Works s u (done ++ more) := by
  constructor
  · rw [second.yield, first.yield, Yield.performAll_append]
  · rw [second.mailbox, first.mailbox, List.filterMap_append, List.append_assoc]
  · exact second.hearings.trans first.hearings
  · exact second.phase.trans first.phase
  · exact second.callbacks.trans first.callbacks
  · exact second.tokens.trans first.tokens
  · exact second.stopping.trans first.stopping
  · exact second.sinks.trans first.sinks
  · exact second.owner.trans first.owner

/-- The worker goes on to another stage. -/
theorem own (same : t = { s with
    clock := t.clock, turn := t.turn, stage := t.stage, constructed := t.constructed,
    inbox := { s.inbox with waiting := t.inbox.waiting } }) : Works s t [] := by
  rw [same]
  exact ⟨rfl, (List.append_nil _).symm, rfl, rfl, rfl, rfl, rfl, rfl, rfl⟩

/-- What is written down is no message, nothing loud, and was not heard by anybody. -/
theorem record (s : Session) {h : Happening} (unsent : h.message? = none) (quiet : h.loud? = none)
    (unheard : h.isHearing = false) : Works s (s.record h) [] := by
  refine ⟨?_, (List.append_nil _).symm, ?_, rfl, rfl, rfl, rfl, rfl, rfl⟩
  · simp [Session.yield, loudIn, quiet, unsent, Session.record, Yield.performAll, history]
  · simp [hearingsIn, unheard]

theorem reach (s : Session) (task : Task) (milestone : Milestone) :
    Works s (s.reach task milestone) [] := record s rfl rfl rfl

theorem note (s : Session) (n : WorkerNote) : Works s (s.note n) [] := record s rfl rfl rfl

theorem emit (alive : s.phase = .alive) (id : DispatchId) (signal : Signal) :
    Works s (s.emit id signal) [.send ⟨id, signal⟩] := by
  rw [Session.emit, send, if_pos alive]
  refine ⟨?_, rfl, ?_, rfl, rfl, rfl, rfl, rfl, rfl⟩
  · simp [Session.yield, loudIn, Happening.loud?, Happening.message?, Session.record,
      Yield.performAll, Yield.perform, history, messagesIn]
  · simp [hearingsIn, Happening.isHearing, history, Session.record]

theorem thenEmit (works : Works s t done) (alive : s.phase = .alive) (id : DispatchId)
    (signal : Signal) : Works s (t.emit id signal) (done ++ [.send ⟨id, signal⟩]) :=
  works.trans (emit (works.phase.trans alive) id signal)

theorem complete (s : Session) (task : Task) (status : Status) :
    Works s (s.logWithin task (.operationComplete status)) [.log (.operationComplete status)] := by
  refine ⟨?_, (List.append_nil _).symm, ?_, rfl, rfl, rfl, rfl, rfl, rfl⟩
  · simp [Session.yield, loudIn, logWithin, Happening.loud?, Happening.message?, Session.record,
      LogEvent.party, LogEvent.isLoud, LogEvent.severity, Yield.performAll, Yield.perform, history,
      messagesIn]
  · simp [hearingsIn, logWithin, Happening.isHearing]

theorem save (s : Session) (id : UInt64) (keyring : Keyring) :
    Works s (s.ask (.save id keyring)).1 [.save id keyring] :=
  ⟨rfl, (List.append_nil _).symm, rfl, rfl, rfl, rfl, rfl, rfl, rfl⟩

end Works

/-- Whoever is called neither panics nor reacts, nobody has stopped the worker, and it is at a
simple operation. -/
structure Simple (s : Session) : Prop where
  callbacks : s.callbacks.ArePlain
  mailbox : ∀ m ∈ s.mailbox, m.IsPlain
  there : s.phase = .alive
  going : s.inbox.stopping = false
  stage : s.stage.IsSimple s.tokens

/-- The worker did the first errands, and the others are left. -/
structure Progresses (S : Setup) (s t : Session) (done : List Errand) : Prop where
  works : Works s t done
  left : s.errands S = done ++ t.errands S
  stage : t.stage.IsSimple t.tokens

section Worker

@[simp] theorem inbox_emit (s : Session) (id : DispatchId) (signal : Signal) :
    (s.emit id signal).inbox = s.inbox := by
  unfold emit send
  split <;> rfl

theorem Works.progresses {done : List Errand} (works : Works s t done)
    (stage : s.stage.errands S s.tokens = done ++ t.stage.errands S s.tokens)
    (inbox : t.inbox = s.inbox) (simple : t.stage.IsSimple s.tokens) : Progresses S s t done := by
  refine ⟨works, ?_, by rwa [works.tokens]⟩
  rw [errands, errands, stage, works.tokens, inbox, List.append_assoc]

/-- A token that is looked at decides between the errands of a dispatch. -/
theorem check_errands (S : Setup) (there : s.phase = .alive) (task : Task) : ∃ done,
    Works s (s.check task) done ∧
    task.errands S s.tokens = done ++ (s.check task).stage.errands S s.tokens ∧
    (s.check task).stage.IsSimple s.tokens ∧ (s.check task).inbox = s.inbox := by
  unfold Session.check Task.errands
  by_cases cancelled : s.tokens.isCancelled task.token = true
  · rw [if_pos cancelled, if_pos cancelled]
    have logged : Works s ((s.reach task (.checked true)).logWithin task .cancelledBeforeStart)
        [] := (Works.reach s task _).trans (Works.record _ rfl rfl rfl)
    have told := logged.thenEmit there task.id (.finished .cancelledBeforeStart)
    exact ⟨_, told.trans (Works.own rfl), rfl, trivial, inbox_emit _ _ _⟩
  · rw [if_neg cancelled, if_neg cancelled]
    have reached := Works.reach s task (.checked false)
    have live : s.tokens.isCancelled task.token = false := by simpa using cancelled
    exact ⟨_, reached.trans (Works.own rfl), rfl, live, rfl⟩

theorem progresses_take (simple : s.Simple) (idle : s.stage = .idle) {rest : List Task}
    (waiting : s.inbox.waiting = task :: rest) :
    ∃ done, Progresses S s (s.take S task rest) done := by
  have none : s.errands S = task.errands S s.tokens ++ rest.flatMap (Task.errands S s.tokens) := by
    rw [errands, idle, waiting]
    rfl
  have taken : Works s ({ s with
      inbox := { s.inbox with waiting := rest }, turn := s.turn.worked }.reach task .taken) [] :=
    (Works.own rfl).trans (Works.reach _ task _)
  unfold take
  dsimp only
  split
  · have logged := taken.trans (Works.record _
      (h := .log ⟨s.clock, some task.span, .waiting S.config.quiescence⟩) rfl rfl rfl)
    exact ⟨_, logged.trans (Works.own rfl), none, trivial⟩
  · obtain ⟨done, works, split, stage, inbox⟩ := check_errands S
      (s := { s with inbox := { s.inbox with waiting := rest }, turn := s.turn.worked }.reach task
        .taken) simple.there task
    have whole := taken.trans works
    refine ⟨_, whole, ?_, by rwa [whole.tokens]⟩
    rw [none, errands, inbox, whole.tokens, ← List.append_assoc]
    exact congrArg (· ++ _) split

theorem progresses_construct (whole : S.IsSimple) (simple : s.Simple)
    (ready : s.stage = .ready task) : Progresses S s (s.construct S task) [] := by
  have created : Works s (({ s with constructed := s.constructed + 1 }.reach task
      (.constructed s.constructed)).note (.created s.constructed s.clock)) [] :=
    ((Works.own rfl).trans (Works.reach _ task _)).trans (Works.note _ _)
  have live : s.tokens.isCancelled task.token = false := by
    have stage := simple.stage
    rwa [ready] at stage
  unfold construct
  simp only [whole.whole, Bool.false_eq_true, if_false]
  exact ((created.trans (Works.note _ _)).trans (Works.own rfl)).progresses (by rw [ready]; rfl) rfl
    ⟨live, whole.body task.request⟩

theorem works_leaveBody (s : Session) (task : Task) (result : Option Result) :
    Works s (s.leaveBody task result) [] := (Works.reach s task _).trans (Works.own rfl)

/-- A step of a body does the errand that goes with it, if there is one. -/
theorem progresses_bodyStep (simple : s.Simple) {n wake : Nat} {step : BodyStep}
    {rest : List BodyStep} (running : s.stage = .running task n (step :: rest) wake) :
    ∃ done, Progresses S s (s.bodyStep S task n rest step) done := by
  have stage := simple.stage
  rw [running] at stage
  obtain ⟨live, steps⟩ := stage
  have others : ∀ step ∈ rest, step.isSimple = true := fun step h =>
    steps step (List.mem_cons_of_mem _ h)
  have this : step.isSimple = true := steps step List.mem_cons_self
  have unseen : s.seesCancelled task = false := by rw [seesCancelled, live, Bool.and_false]
  cases step with
  | progress update =>
    exact ⟨_, ((Works.emit simple.there _ _).trans (Works.own rfl)).progresses
      (by rw [running]; rfl) (inbox_emit _ _ _) ⟨live, others⟩⟩
  | prevent =>
    exact ⟨_, ((Works.emit simple.there _ _).trans (Works.own rfl)).progresses
      (by rw [running]; rfl) (inbox_emit _ _ _) ⟨live, others⟩⟩
  | work duration =>
    exact ⟨_, (Works.own rfl).progresses (by rw [running]; rfl) rfl ⟨live, others⟩⟩
  | stopIfCancelled steps =>
    simp only [bodyStep, unseen, Bool.false_eq_true, if_false]
    exact ⟨_, ((Works.reach s task _).trans (Works.own rfl)).progresses (by rw [running]; rfl) rfl
      ⟨live, others⟩⟩
  | finish kind status log =>
    exact ⟨_, (works_leaveBody s task _).progresses (by rw [running]; rfl) rfl rfl⟩
  | store step =>
    cases step with
    | save id keyring =>
      exact ⟨_, (((Works.save s id keyring).trans (Works.note _ _)).trans
        (Works.own rfl)).progresses (by rw [running]; rfl) rfl ⟨live, others⟩⟩
    | _ => cases this
  | _ => cases this

theorem progresses_leave (simple : s.Simple) {result : Result}
    (leaving : s.stage = .leaving task (some result)) :
    ∃ done, Progresses S s (s.leave task (some result)) done := by
  have logged := Works.complete s task result.status
  have told := logged.thenEmit simple.there task.id (.finished (.completed result))
  exact ⟨_, (told.trans (Works.own rfl)).progresses (by rw [leaving]; rfl) (inbox_emit _ _ _)
    trivial⟩

/-- Every step of the worker does the first of its errands. -/
theorem progresses_advance (whole : S.IsSimple) (simple : s.Simple)
    (next : s.advance? S = some t) : ∃ done, Progresses S s t done := by
  cases advance_cases next with
  | windDown idle stopping =>
    rw [simple.going] at stopping
    cases stopping
  | take idle _ first => exact progresses_take simple idle first
  | @check task wake waits =>
    obtain ⟨done, works, split, simple, inbox⟩ :=
      check_errands S (s := { s with turn := .resumed }) simple.there task
    have due : s.stage.errands S s.tokens = task.errands S s.tokens := by
      rw [waits]
      rfl
    exact ⟨_, ((Works.own (t := { s with turn := .resumed }) rfl).trans works).progresses
      (due.trans split) inbox simple⟩
  | construct ready => exact ⟨_, progresses_construct whole simple ready⟩
  | endBody runs =>
    exact ⟨_, (works_leaveBody s _ _).progresses (by rw [runs]; rfl) rfl rfl⟩
  | bodyStep runs => exact progresses_bodyStep simple runs
  | leave leaves =>
    have stage := simple.stage
    rw [leaves] at stage
    obtain ⟨result, rfl⟩ := Option.isSome_iff_exists.1 stage
    exact progresses_leave simple leaves
  | finishShutdown halted =>
    rw [simple.stage.going] at halted
    cases halted

end Worker

section Delivery

variable {cs : Callbacks Command} {callback : Callback Command}

theorem plain_attach (plain : cs.ArePlain) (id : DispatchId) (same : callback.IsPlain) :
    (cs.attach id callback).ArePlain := by
  intro other c found
  rw [Callbacks.find_attach] at found
  split at found
  · rwa [← Option.some.inj found]
  · exact plain other c found

theorem plain_after (plain : cs.ArePlain) (e : Event) : (cs.after e).ArePlain := by
  intro id c found
  rw [Callbacks.find_after] at found
  split at found
  · split at found
    · cases found
    · obtain ⟨before, there, rfl⟩ := Option.map_eq_some_iff.1 found
      obtain ⟨calm, idle⟩ := plain e.id before there
      exact ⟨calm, by simp [Callback.after, idle]⟩
  · exact plain id c found

theorem plain_registered (plain : cs.ArePlain) {batch : List (Message Command)}
    (same : ∀ m ∈ batch, m.IsPlain) : (Message.registered batch cs).ArePlain := by
  induction batch generalizing cs with
  | nil => exact plain
  | cons m rest ih =>
    refine ih ?_ fun k h => same k (List.mem_cons_of_mem _ h)
    cases m with
    | attach id callback => exact plain_attach plain id (same _ List.mem_cons_self)
    | event e => exact plain

/-- From one session to the other so many events were brought to callbacks that do nothing. -/
structure Hears (s t : Session) (count : Nat) : Prop where
  same : t = { s with callbacks := t.callbacks, trail := t.trail }
  yield : t.yield = s.yield
  hearings : (hearingsIn t.history).length = (hearingsIn s.history).length + count
  callbacks : t.callbacks.ArePlain

theorem hears_record {h : Happening} (hearing : h.isHearing = true) (plain : cs.ArePlain) :
    Hears s ({ s with callbacks := cs }.record h) 1 := by
  have quiet : h.message? = none ∧ h.loud? = none := by
    cases h with
    | told callback e => exact ⟨rfl, rfl⟩
    | log entry =>
      obtain ⟨time, span, event⟩ := entry
      cases event with
      | unclaimed id trigger => exact ⟨rfl, rfl⟩
      | _ => cases hearing
    | _ => cases hearing
  refine ⟨rfl, ?_, ?_, plain⟩
  · simp [Session.yield, loudIn, messagesIn, history, Session.record, quiet]
  · simp [hearingsIn, history, Session.record, hearing]

theorem hears_deliverEvent (plain : s.callbacks.ArePlain) (e : Event) :
    Hears s (s.deliverEvent S e) 1 := by
  rcases deliverEvent_outcome S s e with ⟨-, h⟩ | ⟨callback, found, ⟨panics, -⟩ | ⟨-, h⟩⟩
  · rw [h]
    exact hears_record rfl plain
  · rw [(plain e.id callback found).1] at panics
    cases panics
  · rw [h, Callback.reaction, (plain e.id callback found).2]
    exact hears_record rfl (plain_after plain e)

theorem hears_deliverEvents (there : s.phase = .alive) (plain : s.callbacks.ArePlain)
    (events : List Event) : Hears s (s.deliverEvents S events) events.length := by
  induction events generalizing s with
  | nil => exact ⟨rfl, rfl, rfl, plain⟩
  | cons e rest ih =>
    have first := hears_deliverEvent (S := S) plain e
    have alive : (s.deliverEvent S e).phase = .alive := by
      rw [first.same]
      exact there
    have others := ih alive first.callbacks
    rw [deliverEvents, if_pos alive]
    refine ⟨?_, others.yield.trans first.yield, ?_, others.callbacks⟩
    · rw [others.same, first.same]
    · rw [others.hearings, first.hearings, List.length_cons]
      omega

theorem hears_deliverRound (simple : s.Simple) : Hears (s.taken S) (s.deliverRound S)
    (s.dueEvents S).length := by
  have batch : ∀ m ∈ (Message.nextBatch S.config.coalescing s.mailbox).1, m.IsPlain := by
    intro m h
    refine simple.mailbox m ?_
    rw [← nextBatch_append S.config.coalescing s.mailbox]
    exact List.mem_append_left _ h
  have plain := plain_registered simple.callbacks batch
  exact hears_deliverEvents (s := s.taken S) simple.there plain _

theorem Simple.deliverRound (simple : s.Simple) : (s.deliverRound S).Simple := by
  have hears := hears_deliverRound (S := S) simple
  have mailbox : ∀ m ∈ (s.taken S).mailbox, m.IsPlain := by
    intro m h
    refine simple.mailbox m ?_
    rw [← nextBatch_append S.config.coalescing s.mailbox]
    exact List.mem_append_right _ h
  have plain := hears.callbacks
  rw [hears.same] at plain ⊢
  exact ⟨plain, mailbox, simple.there, simple.going, simple.stage⟩

end Delivery

/-- All events that were sent wait, or were heard. Nothing is left out of what is delivered. -/
def Counted (s : Session) : Prop :=
  (hearingsIn s.history).length + (s.mailbox.filterMap Message.event?).length =
    ((messagesIn s.history).filterMap Message.event?).length

theorem counted_deliverRound (plain : S.config.coalescing = false) (simple : s.Simple)
    (counted : s.Counted) : (s.deliverRound S).Counted := by
  have hears := hears_deliverRound (S := S) simple
  have messages : messagesIn (s.deliverRound S).history = messagesIn s.history :=
    congrArg Yield.messages hears.yield
  have mailbox : (s.deliverRound S).mailbox = s.mailbox.drop 1 := by
    rw [hears.same]
    simp [taken, Message.nextBatch, plain]
  have due : (s.dueEvents S).length = ((s.mailbox.take 1).filterMap Message.event?).length := by
    simp [dueEvents, Message.events, Message.nextBatch, plain]
  have whole := congrArg (fun l => (l.filterMap Message.event?).length)
    (List.take_append_drop 1 s.mailbox)
  have before : (hearingsIn s.history).length + (s.mailbox.filterMap Message.event?).length =
    ((messagesIn s.history).filterMap Message.event?).length := counted
  have heard : (hearingsIn (s.deliverRound S).history).length =
    (hearingsIn s.history).length + (s.dueEvents S).length := hears.hearings
  rw [List.filterMap_append, List.length_append] at whole
  rw [Counted, messages, mailbox, heard, due]
  omega

theorem messages_of_yield {done : List Errand} (yield : t.yield = s.yield.performAll done) :
    messagesIn t.history = messagesIn s.history ++ done.filterMap Errand.message? := by
  rw [Yield.performAll_eq] at yield
  exact congrArg Yield.messages yield

theorem logs_of_yield {done : List Errand} (yield : t.yield = s.yield.performAll done) :
    loudIn t.history = loudIn s.history ++ done.filterMap Errand.logged? := by
  rw [Yield.performAll_eq] at yield
  exact congrArg Yield.logs yield

theorem store_of_yield {done : List Errand} (yield : t.yield = s.yield.performAll done) :
    t.store = (done.filterMap Errand.saved?).foldl (fun store e => store.save e.1 e.2)
      s.store := by
  rw [Yield.performAll_eq] at yield
  exact congrArg Yield.store yield

theorem Works.counted {done : List Errand} (works : Works s t done) (counted : s.Counted) :
    t.Counted := by
  have messages := messages_of_yield works.yield
  rw [Counted, works.hearings, works.mailbox, messages, List.filterMap_append,
    List.filterMap_append, List.length_append, List.length_append, ← counted]
  omega

theorem Works.simple {done : List Errand} (works : Works s t done) (simple : s.Simple)
    (stage : t.stage.IsSimple t.tokens) : t.Simple := by
  refine ⟨by rw [works.callbacks]; exact simple.callbacks, fun m h => ?_,
    works.phase.trans simple.there, works.stopping.trans simple.going, stage⟩
  rw [works.mailbox] at h
  rcases List.mem_append.1 h with h | h
  · exact simple.mailbox m h
  · obtain ⟨errand, -, sent⟩ := List.mem_filterMap.1 h
    cases errand with
    | send e =>
      rw [← Option.some.inj sent]
      trivial
    | _ => cases sent

/-- From one session to the other these errands were done; what was delivered meanwhile does not
come into it. -/
structure Goes (S : Setup) (s t : Session) (done : List Errand) : Prop where
  yield : t.yield = s.yield.performAll done
  left : s.errands S = done ++ t.errands S
  simple : t.Simple
  sinks : t.sinks = s.sinks
  owner : t.owner = s.owner
  counted : S.config.coalescing = false → s.Counted → t.Counted

theorem Goes.trans {done more : List Errand} (first : Goes S s t done)
    (second : Goes S t u more) : Goes S s u (done ++ more) := by
  refine ⟨?_, ?_, second.simple, second.sinks.trans first.sinks, second.owner.trans first.owner,
    fun plain counted => second.counted plain (first.counted plain counted)⟩
  · rw [second.yield, first.yield, Yield.performAll_append]
  · rw [first.left, second.left, List.append_assoc]

theorem Simple.next (whole : S.IsSimple) (simple : s.Simple) (next : s.next? S limit = some t) :
    ∃ done, Goes S s t done := by
  cases next_cases next with
  | delivered =>
    have hears := hears_deliverRound (S := S) simple
    refine ⟨[], hears.yield, ?_, simple.deliverRound, ?_, ?_,
      fun plain => counted_deliverRound plain simple⟩
    all_goals rw [hears.same]
    · exact (List.nil_append _).symm
    · rfl
    · rfl
  | woke =>
    exact ⟨[], rfl, rfl, ⟨simple.callbacks, simple.mailbox, simple.there, simple.going,
      simple.stage⟩, rfl, rfl, fun _ counted => counted⟩
  | worked _ works =>
    obtain ⟨done, progresses⟩ := progresses_advance whole simple works
    have works := progresses.works
    exact ⟨done, works.yield, progresses.left, works.simple simple progresses.stage, works.sinks,
      works.owner, fun _ counted => works.counted counted⟩

/-- A worker that has nothing to do any more waits for dispatches. -/
theorem Simple.rest (simple : s.Simple) (stops : s.next? S none = none) :
    s.stage = .idle ∧ s.inbox.waiting = [] ∧ s.mailbox = [] := by
  obtain ⟨-, ⟨-, soon⟩ | ⟨-, nothing⟩⟩ := next_none_cases stops
  · simp [Timer.isBefore] at soon
  · obtain ⟨idle, -, waiting⟩ := idle_of_advance_none simple.stage.going nothing
    exact ⟨idle, waiting, mailbox_of_rest stops⟩

/-- Part of a run does the first errands. -/
theorem Simple.steps (whole : S.IsSimple) (simple : s.Simple) (steps : Steps S none s t) :
    ∃ done, Goes S s t done := by
  induction steps with
  | refl => exact ⟨[], rfl, rfl, simple, rfl, rfl, fun _ counted => counted⟩
  | tail _ next ih =>
    obtain ⟨done, before⟩ := ih
    obtain ⟨more, goes⟩ := before.simple.next whole next
    exact ⟨done ++ more, before.trans goes⟩

/-- A run does all errands. -/
theorem Simple.run (whole : S.IsSimple) (simple : s.Simple) :
    Goes S s (s.run S none) (s.errands S) ∧ (s.run S none).stage = .idle ∧
      (s.run S none).inbox.waiting = [] ∧ (s.run S none).mailbox = [] := by
  fun_induction Session.run S none s with
  | case1 s stops =>
    have rest := simple.rest stops
    have nothing : s.errands S = [] := by
      rw [errands, rest.1, rest.2.1]
      rfl
    refine ⟨⟨?_, ?_, simple, rfl, rfl, fun _ counted => counted⟩, rest⟩
    · rw [nothing]
      rfl
    · rw [nothing]
      rfl
  | case2 s t next ih =>
    obtain ⟨done, goes⟩ := simple.next whole next
    obtain ⟨others, rest⟩ := ih goes.simple
    rw [goes.left]
    exact ⟨goes.trans others, rest⟩

/-- What was told was all that was sent, so nothing was unclaimed. -/
theorem Counted.claimed (counted : s.Counted) (mailbox : s.mailbox = [])
    (told : (toldIn s.history).length = ((messagesIn s.history).filterMap Message.event?).length) :
    s.history.filter Happening.isUnclaimed = [] := by
  have heard := length_hearingsIn s.history
  rw [Counted, mailbox, List.filterMap_nil, List.length_nil] at counted
  exact List.length_eq_zero_iff.1 (by omega)

/-- Whatever has to be done for an operation, something is sent. -/
theorem exists_send (task : Task) (steps : List BodyStep) :
    ∃ e, .send e ∈ task.bodyErrands steps := by
  fun_induction Task.bodyErrands task steps with
  | case1 | case5 => exact ⟨_, List.mem_cons_of_mem _ List.mem_cons_self⟩
  | case2 | case3 => exact ⟨_, List.mem_cons_self⟩
  | _ =>
    rename_i ih
    obtain ⟨e, there⟩ := ih
    exact ⟨e, by simp [there]⟩

/-- A worker that has nothing to send any more is idle. -/
theorem Simple.idle (simple : s.Simple)
    (silent : (s.errands S).filterMap Errand.message? = []) :
    s.stage = .idle ∧ s.inbox.waiting = [] := by
  have body (task : Task) (steps : List BodyStep) :
      (task.bodyErrands steps).filterMap Errand.message? ≠ [] := by
    obtain ⟨e, there⟩ := exists_send task steps
    exact List.ne_nil_of_mem (List.mem_filterMap.2 ⟨_, there, rfl⟩)
  have waits (task : Task) : (task.errands S s.tokens).filterMap Errand.message? ≠ [] := by
    unfold Task.errands
    split
    · exact List.cons_ne_nil _ _
    · exact body task _
  rw [errands, List.filterMap_append, List.append_eq_nil_iff] at silent
  obtain ⟨first, others⟩ := silent
  constructor
  · have stage := simple.stage
    cases hs : s.stage with
    | idle => rfl
    | window task wake => exact absurd (by rwa [hs] at first) (waits task)
    | ready task => exact absurd (by rwa [hs] at first) (body task _)
    | running task n rest wake => exact absurd (by rwa [hs] at first) (body task rest)
    | leaving task result =>
      rw [hs] at stage first
      obtain ⟨result, rfl⟩ := Option.isSome_iff_exists.1 stage
      cases first
    | ended | dead =>
      rw [hs] at stage
      cases stage
  · cases hw : s.inbox.waiting with
    | nil => rfl
    | cons task rest =>
      rw [hw, List.flatMap_cons, List.filterMap_append, List.append_eq_nil_iff] at others
      exact absurd others.1 (waits task)

/-- Nothing is left to be done when nothing waits and nothing is to be sent. -/
theorem Simple.stops (simple : s.Simple) (mailbox : s.mailbox = [])
    (silent : (s.errands S).filterMap Errand.message? = []) : s.next? S none = none := by
  obtain ⟨idle, waiting⟩ := simple.idle silent
  simp [next?, advance?, mailbox, idle, waiting, simple.going, Stage.wake]

/-- A worker that has nothing to do ends as soon as it is signalled to stop. -/
theorem run_signalStop (limit : Option Nat) (idle : s.stage = .idle) (waiting : s.inbox.waiting = [])
    (mailbox : s.mailbox = []) : ({ s.signalStop .gone with turn := .first } : Session).run S limit =
      { s.signalStop .gone with turn := .first, stage := .ended, inbox := s.inbox.stop.close } := by
  have first : ({ s.signalStop .gone with turn := .first } : Session).next? S limit = some
      { s.signalStop .gone with turn := .first, stage := .ended, inbox := s.inbox.stop.close } := by
    simp [next?, signalStop, Session.record, mailbox, idle, Stage.wake, advance?, windDown, waiting,
      Inbox.stop]
  have last : ({ s.signalStop .gone with
      turn := .first, stage := .ended, inbox := s.inbox.stop.close } : Session).next? S limit =
        none := by
    simp [next?, signalStop, Session.record, mailbox, Stage.wake, advance?]
  rw [run_of_next first, run_of_rest last]

end Session
end SerialDispatch
