import SerialDispatch.Proofs.Dispatcher.Mailbox

/-!
# Sessions in outline

Signals that are delivered in another way, or not at all, leave the work as it is. An outline of a
session leaves out delivery: what waits for it, the callbacks, and what they are told. Whatever
caller and worker do to two sessions of one outline leads to two sessions of one outline; what can
be told from the outline is the same in both. Main statement: `Session.advance_like`.
-/
namespace SerialDispatch

/-- How much an outline shows. -/
inductive Regard where
  /-- All that caller and worker do. -/
  | effects
  /-- What the worker does, and what it works on. -/
  | labour
  deriving DecidableEq

/-- What is seen of a happening; a message is seen whether or not delivery still takes it. -/
def Regard.see (r : Regard) : Happening → Option Happening
  | .sent m | .lost m => some (.sent m)
  | .told .. | .did .. => none
  | .note (.shutdownDone time) =>
    match r with
    | .effects => some (.note (.shutdownDone time))
    | .labour => none
  | .log record =>
    match r, record.event.party with
    | _, .worker | .effects, .caller => some (.log record)
    | _, _ => none
  | .reached task (.submitted callback) time =>
    match r with
    | .effects => some (.reached task (.submitted callback) time)
    | .labour => some (.reached task (.submitted callback) 0)
  | h => some h

/-- The worker does not look at the clock once it is over. -/
def Regard.clock (r : Regard) (stage : Stage) (clock : Nat) : Nat :=
  match r with
  | .effects => clock
  | .labour => if stage.isOver then 0 else clock

def Regard.owner (r : Regard) : Owner → Owner
  | .closing =>
    match r with
    | .effects => .closing
    | .labour => .gone
  | owner => owner

/-- What a party has logged. -/
def Happening.logOf? (party : Party) : Happening → Option LogRecord
  | .log record => if record.event.party = party then some record else none
  | _ => none

/-- What a party has logged, in order. -/
def logsOf (party : Party) (history : List Happening) : List LogRecord :=
  history.filterMap (Happening.logOf? party)

/-- What worker and bodies leave behind of their work. -/
def Happening.labour? : Happening → Option WorkerNote
  | .note (.shutdownDone _) => none
  | .note n => some n
  | _ => none

/-- What worker and bodies leave behind of their work, in order. -/
def labourIn (history : List Happening) : List WorkerNote := history.filterMap Happening.labour?

namespace Session

/-- The session without its delivery. -/
def outline (r : Regard) (s : Session) : Session := { s with
  clock := r.clock s.stage s.clock
  owner := r.owner s.owner
  turn := .first
  phase := .alive
  mailbox := []
  callbacks := .none
  trail := s.trail.filterMap r.see }

/-- The two sessions have one outline. -/
def Like (r : Regard) (s t : Session) : Prop := s.outline r = t.outline r

variable {r : Regard} {s t : Session}

namespace Like

theorem refl (s : Session) : Like r s s := rfl

theorem eq (like : Like r s t) : s.outline r = t.outline r := like

/-- What the outline shows is the same. -/
theorem field {α : Type} (like : Like r s t) (f : Session → α) :
    f (s.outline r) = f (t.outline r) := congrArg f like.eq

theorem symm (like : Like r s t) : Like r t s := like.eq.symm

theorem trans {u : Session} (first : Like r s t) (second : Like r t u) : Like r s u :=
  first.eq.trans second.eq

theorem alive (like : Like r s t) : s.alive = t.alive := like.field Session.alive

theorem starts (like : Like r s t) : s.starts = t.starts := like.field Session.starts

theorem nextId (like : Like r s t) : s.nextId = t.nextId := like.field Session.nextId

theorem tokens (like : Like r s t) : s.tokens = t.tokens := like.field Session.tokens

theorem handles (like : Like r s t) : s.handles = t.handles := like.field Session.handles

theorem inbox (like : Like r s t) : s.inbox = t.inbox := like.field Session.inbox

theorem stage (like : Like r s t) : s.stage = t.stage := like.field Session.stage

theorem constructed (like : Like r s t) : s.constructed = t.constructed :=
  like.field Session.constructed

theorem sinks (like : Like r s t) : s.sinks = t.sinks := like.field Session.sinks

theorem store (like : Like r s t) : s.store = t.store := like.field Session.store

theorem trail (like : Like r s t) : s.trail.filterMap r.see = t.trail.filterMap r.see :=
  like.field Session.trail

theorem seenOwner (like : Like r s t) : r.owner s.owner = r.owner t.owner :=
  like.field Session.owner

theorem held (like : Like r s t) : s.owner = .held ↔ t.owner = .held := by
  have same : ∀ owner : Owner, owner = .held ↔ r.owner owner = .held := by
    intro owner
    cases owner <;> cases r <;> simp [Regard.owner]
  rw [same, same t.owner, like.seenOwner]

theorem owner (like : Like .effects s t) : s.owner = t.owner := by
  have same : ∀ owner : Owner, Regard.effects.owner owner = owner := by
    intro owner
    cases owner <;> rfl
  rw [← same s.owner, ← same t.owner, like.seenOwner]

/-- The clock is seen as long as the worker may look at it. -/
theorem clock (like : Like r s t) (seen : r = .effects ∨ s.stage.isOver = false) :
    s.clock = t.clock := by
  have hclock : r.clock s.stage s.clock = r.clock t.stage t.clock := like.field Session.clock
  rw [← like.stage] at hclock
  cases r with
  | effects => exact hclock
  | labour =>
    rcases seen with h | h
    · cases h
    · simpa [Regard.clock, h] using hclock

theorem history (like : Like r s t) : s.history.filterMap r.see = t.history.filterMap r.see := by
  unfold Session.history
  rw [List.filterMap_reverse, List.filterMap_reverse, like.trail]

/-- What can be told from what is seen of the happenings is the same. -/
theorem view {α : Type} (like : Like r s t) (f : Happening → Option α)
    (seen : ∀ h, (r.see h).bind f = f h) : s.history.filterMap f = t.history.filterMap f := by
  have whole : ∀ history : List Happening,
      history.filterMap f = (history.filterMap r.see).filterMap f := fun history => by
    rw [List.filterMap_filterMap]
    exact congrArg (history.filterMap ·) (funext fun h => (seen h).symm)
  rw [whole, whole t.history, like.history]

/-- The same is done to both sessions. -/
theorem update (like : Like r s t) (f : Session → Session)
    (seen : ∀ u : Session, (f u).outline r = f (u.outline r)) : Like r (f s) (f t) := by
  rw [Like, seen, seen, like.eq]

theorem atStage (like : Like r s t) {stage other : Stage} (alike : stage = other)
    (same : s.clock = t.clock) :
    Like r { s with stage := stage } { t with stage := other } := by
  show { s.outline r with stage := stage, clock := r.clock stage s.clock } =
    { t.outline r with stage := other, clock := r.clock other t.clock }
  rw [same, like.eq, alike]

theorem atClock (like : Like r s t) (time : Nat) :
    Like r { s with clock := time } { t with clock := time } := by
  show { s.outline r with clock := r.clock s.stage time } =
    { t.outline r with clock := r.clock t.stage time }
  rw [like.stage, like.eq]

/-- The clock does not matter when the worker is over. -/
theorem atAnyClock (like : Like .labour s t) (halted : s.stage.isOver = true) (time other : Nat) :
    Like .labour { s with clock := time } { t with clock := other } := by
  have hidden : ∀ (u : Session) (time : Nat), u.stage.isOver = true →
      { u with clock := time }.outline .labour = u.outline .labour := by
    intro u time halted
    simp [outline, Regard.clock, halted]
  rw [Like, hidden s time halted, hidden t other (by rw [← like.stage]; exact halted), like.eq]

theorem record (like : Like r s t) {h k : Happening} (seen : r.see h = r.see k) :
    Like r (s.record h) (t.record k) := by
  have recorded : ∀ (u : Session) (h : Happening), (u.record h).outline r =
      { u.outline r with trail := (r.see h).toList ++ u.trail.filterMap r.see } := by
    intro u h
    cases hh : r.see h <;> simp [Session.record, outline, hh]
  rw [Like, recorded, recorded, like.eq, seen, like.trail]

/-- What is not seen may be recorded. -/
theorem unseen (s : Session) {h : Happening} (unseen : r.see h = none) :
    Like r (s.record h) s := by
  simp [Like, Session.record, outline, unseen]

theorem log (like : Like r s t) {event : LogEvent} (byCaller : event.party = .caller) :
    Like r (s.log event) (t.log event) := by
  refine like.record ?_
  cases r with
  | effects => rw [like.clock (.inl rfl)]
  | labour => simp [Regard.see, byCaller]

theorem reach (like : Like r s t) (same : s.clock = t.clock) (task : Task)
    (milestone : Milestone) : Like r (s.reach task milestone) (t.reach task milestone) :=
  like.record (by rw [same])

theorem logWithin (like : Like r s t) (same : s.clock = t.clock) (task : Task)
    (event : LogEvent) : Like r (s.logWithin task event) (t.logWithin task event) :=
  like.record (by rw [same])

theorem note (like : Like r s t) (n : WorkerNote) : Like r (s.note n) (t.note n) :=
  like.record rfl

theorem send (like : Like r s t) (m : Message Command) : Like r (s.send m) (t.send m) := by
  have sent : ∀ u : Session, Like r (u.send m) (u.record (.sent m)) := by
    intro u
    unfold Session.send
    split
    · rfl
    · exact (refl u).record rfl
  exact ((sent s).trans (like.record rfl)).trans (sent t).symm

theorem emit (like : Like r s t) (id : DispatchId) (signal : Signal) :
    Like r (s.emit id signal) (t.emit id signal) := like.send _

theorem cancelToken (like : Like r s t) (token : Token) :
    Like r { s with tokens := s.tokens.cancel token } { t with tokens := t.tokens.cancel token } :=
  like.update (fun u => { u with tokens := u.tokens.cancel token }) fun _ => rfl

theorem refuse (like : Like r s t) (id : DispatchId) (token : Token) :
    Like r (s.refuse id token) (t.refuse id token) :=
  (like.cancelToken token).emit id _

theorem signalStop (like : Like r s t) (owner : Owner) :
    Like r (s.signalStop owner) (t.signalStop owner) := by
  have stopped : Like r { s with owner := owner, inbox := s.inbox.stop }
      { t with owner := owner, inbox := t.inbox.stop } := by
    show { s.outline r with owner := r.owner owner, inbox := s.inbox.stop } =
      { t.outline r with owner := r.owner owner, inbox := t.inbox.stop }
    rw [like.eq, like.inbox]
  exact stopped.record rfl

theorem submitted (like : Like r s t) (task : Task) (callback : Nat) :
    Like r (s.reach task (.submitted callback)) (t.reach task (.submitted callback)) := by
  refine like.record ?_
  cases r with
  | effects => rw [like.clock (.inl rfl)]
  | labour => rfl

theorem submit (like : Like r s t) (callback : Nat) (task : Task) :
    Like r (s.submit callback task) (t.submit callback task) := by
  have handed : ∀ {u v : Session}, Like r u v →
      Like r { u with handles := u.handles ++ [(task.id, task.token)] }
        { v with handles := v.handles ++ [(task.id, task.token)] } :=
    fun like => like.update (fun u => { u with handles := u.handles ++ [(task.id, task.token)] })
      fun _ => rfl
  unfold Session.submit
  rw [← like.inbox]
  cases s.inbox.submit task with
  | ok inbox =>
    have taken : Like r { s with inbox := inbox } { t with inbox := inbox } :=
      like.update (fun u => { u with inbox := inbox }) fun _ => rfl
    exact handed ((taken.submitted task callback).log rfl)
  | error e => exact handed ((like.log rfl).refuse task.id task.token)

theorem allot (like : Like r s t) : Like r s.allot t.allot := like.update Session.allot fun _ => rfl

theorem startRequest (like : Like r s t) (S : Setup) (request : Request) (input : CryptoInput)
    (surface : Surface) (callback : Callback Command) :
    Like r (s.startRequest S request input surface callback).1
      (t.startRequest S request input surface callback).1 ∧
    (s.startRequest S request input surface callback).2 =
      (t.startRequest S request input surface callback).2 := by
  unfold Session.startRequest
  cases S.registry.resolve request.kind with
  | error refusal => exact ⟨like, rfl⟩
  | ok factory =>
    dsimp only
    split
    · exact ⟨like.allot, rfl⟩
    · rw [← like.nextId, ← like.tokens, ← like.handles]
      exact ⟨(like.allot.send _).submit _ _, rfl⟩

theorem cancel (like : Like r s t) (handle : Nat) :
    Like r (s.cancel handle).1 (t.cancel handle).1 ∧ (s.cancel handle).2 = (t.cancel handle).2 := by
  unfold Session.cancel
  rw [show t.handles[handle]? = s.handles[handle]? by rw [like.handles]]
  cases s.handles[handle]? with
  | none => exact ⟨like, rfl⟩
  | some pair =>
    obtain ⟨id, token⟩ := pair
    simp only [show t.tokens.isCancelled token = s.tokens.isCancelled token by rw [like.tokens]]
    split
    · exact ⟨like.record rfl, rfl⟩
    · exact ⟨((like.cancelToken token).record rfl).log rfl, rfl⟩

theorem perform (like : Like r s t) (S : Setup) (c : Command) :
    Like r (s.perform S c).1 (t.perform S c).1 ∧ (s.perform S c).2 = (t.perform S c).2 := by
  cases c with
  | start request input surface panicsOn reactions =>
    have counted : Like r { s with starts := s.starts + 1 } { t with starts := t.starts + 1 } :=
      like.update (fun u => { u with starts := u.starts + 1 }) fun _ => rfl
    simp only [Session.perform, ← like.starts, ← like.held] at counted ⊢
    split
    · exact ⟨like, rfl⟩
    · split
      · exact counted.startRequest S request input surface _
      · exact ⟨counted, rfl⟩
  | cancel handle => exact like.cancel handle
  | drop =>
    simp only [Session.perform, ← like.held]
    split
    · exact ⟨like.signalStop .gone, rfl⟩
    · exact ⟨like, rfl⟩
  | unreadable word fault => exact ⟨like, rfl⟩

theorem ask (like : Like r s t) (step : StoreStep) :
    Like r (s.ask step).1 (t.ask step).1 ∧ (s.ask step).2 = (t.ask step).2 := by
  unfold Session.ask
  rw [← like.store]
  exact ⟨like.update (fun u => { u with store := (s.store.step step).1 }) fun _ => rfl, rfl⟩

theorem through (like : Like r s t) (sink : Nat) (signal : Signal) :
    Like r (s.through sink signal).1 (t.through sink signal).1 ∧
      (s.through sink signal).2 = (t.through sink signal).2 := by
  have same : s.sinkHeld sink = t.sinkHeld sink := by rw [sinkHeld, sinkHeld, like.sinks]
  unfold Session.through
  rw [← same]
  cases s.sinkHeld sink with
  | none => exact ⟨like, rfl⟩
  | some id => exact ⟨(like.record rfl).emit id signal, rfl⟩

section Worker

variable (S : Setup) (task : Task)

theorem check (like : Like r s t) (same : s.clock = t.clock) :
    Like r (s.check task) (t.check task) := by
  unfold Session.check
  rw [← like.tokens]
  split
  · refine atStage (((like.reach same task _).logWithin same task _).emit _ _) rfl ?_
    rw [(Chores.emit _ _ _).clock, (Chores.emit _ _ _).clock]
    exact same
  · exact (like.reach same task _).atStage rfl same

theorem take (like : Like r s t) (same : s.clock = t.clock) (rest : List Task) :
    Like r (s.take S task rest) (t.take S task rest) := by
  have taken : Like r { s with inbox := { s.inbox with waiting := rest }, turn := s.turn.worked }
      { t with inbox := { t.inbox with waiting := rest }, turn := t.turn.worked } :=
    like.update (fun u => { u with inbox := { u.inbox with waiting := rest } }) fun _ => rfl
  have reached := taken.reach same task .taken
  unfold Session.take
  split
  · exact (reached.logWithin same task _).atStage
      (congrArg (fun now => Stage.window task (Timer.due now S.config.quiescence)) same) same
  · exact reached.check task same

theorem leaveBody (like : Like r s t) (same : s.clock = t.clock) (result : Option Result) :
    Like r (s.leaveBody task result) (t.leaveBody task result) :=
  (like.reach same task _).atStage rfl same

theorem construct (like : Like r s t) (same : s.clock = t.clock) :
    Like r (s.construct S task) (t.construct S task) := by
  have counted : Like r { s with constructed := s.constructed + 1 }
      { t with constructed := t.constructed + 1 } :=
    like.update (fun u => { u with constructed := u.constructed + 1 }) fun _ => rfl
  have created : Like r
      (({ s with constructed := s.constructed + 1 }.reach task (.constructed s.constructed)).note
        (.created s.constructed s.clock))
      (({ t with constructed := t.constructed + 1 }.reach task (.constructed t.constructed)).note
        (.created t.constructed t.clock)) :=
    record (record counted (by rw [same, like.constructed])) (by rw [same, like.constructed])
  have breaks : S.breaks t.constructed = S.breaks s.constructed := by rw [like.constructed]
  unfold Session.construct
  simp only [breaks]
  split
  · exact created.leaveBody task same none
  · refine atStage (created.record ?_) ?_ same
    · rw [like.constructed]
    · rw [like.constructed, same]

theorem look (like : Like r s t) (same : s.clock = t.clock) :
    Like r (s.look task) (t.look task) := by
  unfold Session.look seesCancelled
  rw [← like.tokens]
  exact like.reach same task _

theorem beginShutdown (like : Like r s t) : Like r s.beginShutdown t.beginShutdown := by
  unfold Session.beginShutdown
  simp only [← like.held]
  split
  · exact like.signalStop .closing
  · exact like

theorem bodyStep (like : Like r s t) (same : s.clock = t.clock) (n : Nat) (rest : List BodyStep)
    (step : BodyStep) : Like r (s.bodyStep S task n rest step) (t.bodyStep S task n rest step) := by
  have next : ∀ {u v : Session}, Like r u v → u.clock = s.clock → v.clock = t.clock →
      Like r { u with stage := .running task n rest u.clock }
        { v with stage := .running task n rest v.clock } := by
    intro u v like hu hv
    have now : u.clock = v.clock := (hu.trans same).trans hv.symm
    exact like.atStage (by rw [now]) now
  have performed : ∀ (u : Session) (c : Command), (u.perform S c).1.clock = u.clock :=
    fun u c => (Unmoved.perform u c).clock
  have seen : s.seesCancelled task = t.seesCancelled task := by
    rw [seesCancelled, seesCancelled, like.tokens]
  cases step with
  | progress update => exact next (like.emit _ _) (Chores.emit _ _ _).clock (Chores.emit _ _ _).clock
  | prevent => exact next (like.emit _ _) (Chores.emit _ _ _).clock (Chores.emit _ _ _).clock
  | flush => exact next like rfl rfl
  | work duration => exact like.atStage (by rw [same]) same
  | poll =>
    simp only [Session.bodyStep, ← seen]
    exact next ((like.look task same).note _) rfl rfl
  | stopIfCancelled steps =>
    simp only [Session.bodyStep, ← seen]
    split
    · exact (like.look task same).leaveBody task same _
    · exact next (like.look task same) rfl rfl
  | leak =>
    have kept : Like r { s with sinks := s.sinks ++ [some task.id] }
        { t with sinks := t.sinks ++ [some task.id] } :=
      like.update (fun u => { u with sinks := u.sinks ++ [some task.id] }) fun _ => rfl
    simp only [Session.bodyStep]
    rw [← like.sinks] at kept ⊢
    exact next (kept.note _) rfl rfl
  | panic => exact like.leaveBody task same none
  | finish kind status log => exact like.leaveBody task same _
  | store step =>
    obtain ⟨asked, reply⟩ := like.ask step
    simp only [Session.bodyStep, ← reply]
    exact next (asked.note _) rfl rfl
  | command command =>
    obtain ⟨done, reply⟩ := like.perform S command
    simp only [Session.bodyStep, ← reply]
    exact next (done.note _) (performed s command) (performed t command)
  | shutdown =>
    have still : ∀ u : Session, u.beginShutdown.clock = u.clock := by
      intro u
      unfold Session.beginShutdown
      split <;> rfl
    refine (like.beginShutdown.note _).atStage (by rw [same]) ?_
    exact ((still s).trans same).trans (still t).symm
  | unreadable word fault => exact next (like.note _) rfl rfl

theorem leave (like : Like r s t) (same : s.clock = t.clock) (result : Option Result) :
    Like r (s.leave task result) (t.leave task result) := by
  have ended : ∀ {u v : Session} (event : LogEvent) (signal : Signal), Like r u v →
      u.clock = v.clock →
      Like r { (u.logWithin task event).emit task.id signal with stage := .idle, turn := .resumed }
        { (v.logWithin task event).emit task.id signal with stage := .idle, turn := .resumed } := by
    intro u v event signal like same
    refine atStage ((like.logWithin same task event).emit task.id signal) rfl ?_
    rw [(Chores.emit _ _ _).clock, (Chores.emit _ _ _).clock]
    exact same
  unfold Session.leave
  cases hr : result.isNone with
  | true => exact ended _ _ (like.logWithin same task .operationPanicked) same
  | false => exact ended _ _ like same

theorem discard (like : Like r s t) (same : s.clock = t.clock) :
    Like r (s.discard task) (t.discard task) := by
  refine (record ((like.cancelToken task.token).reach same task .discarded) ?_).emit _ _
  exact congrArg (fun time => r.see (.log ⟨time, none, .queuedDropped task.id⟩)) same

theorem windDown (like : Like r s t) (same : s.clock = t.clock) :
    Like r s.windDown t.windDown := by
  have discards : ∀ (tasks : List Task) {u v : Session}, Like r u v → u.clock = v.clock →
      Like r (tasks.foldl Session.discard u) (tasks.foldl Session.discard v) ∧
        (tasks.foldl Session.discard u).clock = (tasks.foldl Session.discard v).clock := by
    intro tasks
    induction tasks with
    | nil => exact fun like same => ⟨like, same⟩
    | cons task rest ih =>
      intro u v like same
      refine ih (like.discard task same) ?_
      unfold Session.discard
      rw [(Chores.emit _ _ _).clock, (Chores.emit _ _ _).clock]
      exact same
  obtain ⟨done, still⟩ := discards s.inbox.waiting like same
  unfold Session.windDown
  rw [← like.inbox]
  have closed := done.update (fun u => { u with inbox := u.inbox.close }) fun _ => rfl
  exact closed.atStage rfl still

/-- The worker does the same in both sessions, until it is over. -/
theorem advance (like : Like r s t) (there : s.stage.isOver = false) :
    (s.advance? S).map (outline r) = (t.advance? S).map (outline r) := by
  have same := like.clock (.inr there)
  have goes : ∀ {u v : Session}, Like r u v →
      (some u).map (outline r) = (some v).map (outline r) := fun like => congrArg some like.eq
  cases hs : s.stage with
  | window task wake =>
    have turned : Like r { s with turn := .resumed } { t with turn := .resumed } := like
    rw [advance_window hs, advance_window (like.stage.symm.trans hs)]
    exact goes (turned.check task same)
  | idle =>
    simp only [Session.advance?, ← like.stage, hs, ← like.inbox]
    split
    · exact goes (like.windDown same)
    · cases s.inbox.waiting with
      | nil => rfl
      | cons task rest => exact goes (like.take S task same rest)
  | ready task =>
    simp only [Session.advance?, ← like.stage, hs]
    exact goes (like.construct S task same)
  | running task n rest wake =>
    simp only [Session.advance?, ← like.stage, hs]
    cases rest with
    | nil => exact goes (like.leaveBody task same _)
    | cons step rest => exact goes (like.bodyStep S task same n rest step)
  | leaving task result =>
    simp only [Session.advance?, ← like.stage, hs]
    exact goes (like.leave task same result)
  | ended => simp [hs, Stage.isOver] at there
  | dead => simp [hs, Stage.isOver] at there

end Worker

/-- The end of a shutdown is seen by its caller only. -/
theorem logShutdown_unseen (s : Session) : Like .labour s.logShutdown s := by
  have logged : ∀ (u : Session) {event : LogEvent}, event.party = .caller →
      Like .labour (u.log event) u :=
    fun u event byCaller => unseen u (by simp [Regard.see, byCaller])
  exact logShutdown_induct (motive := (Like .labour · s)) (refl s)
    (fun u like => (logged u rfl).trans like) fun u like => (logged u rfl).trans like

theorem finishShutdown_unseen (closing : s.owner = .closing) :
    Like .labour s.finishShutdown s := by
  have gone : Like .labour { s with owner := .gone } s := by
    show { s.outline .labour with owner := .gone } = s.outline .labour
    simp [outline, closing, Regard.owner]
  exact ((unseen _ rfl).trans (logShutdown_unseen _)).trans gone

theorem logShutdown (like : Like r s t) (phase : s.phase = .alive ↔ t.phase = .alive) :
    Like r s.logShutdown t.logShutdown := by
  have reported : ∀ {u v : Session}, Like r u v → (u.phase = .alive ↔ v.phase = .alive) →
      Like r (if u.phase = .alive then u else u.log .deliveryDied)
        (if v.phase = .alive then v else v.log .deliveryDied) := by
    intro u v like phase
    simp only [← phase]
    split
    · exact like
    · exact like.log rfl
  unfold Session.logShutdown
  rw [← like.stage]
  cases s.stage with
  | dead =>
    have died : Like r (s.log .workerDied) (t.log .workerDied) := like.log rfl
    exact reported died phase
  | _ => exact reported like phase

theorem teardown (like : Like r s t) : Like r s.teardown t.teardown := by
  have owner : r.owner (if s.owner = Owner.closing then .gone else s.owner) =
      r.owner (if t.owner = Owner.closing then .gone else t.owner) := by
    have seen := like.seenOwner
    cases r with
    | effects => rw [like.owner]
    | labour =>
      have same : ∀ owner : Owner,
          Regard.labour.owner (if owner = Owner.closing then .gone else owner) =
            Regard.labour.owner owner := by
        intro owner
        cases owner <;> rfl
      rw [same, same, seen]
  have clock : r.clock .dead s.clock = r.clock .dead t.clock := by
    cases r with
    | effects => exact like.clock (.inl rfl)
    | labour => rfl
  have torn : Like r (s.record .tornDown) (t.record .tornDown) := like.record rfl
  show { (s.record .tornDown).outline r with
      clock := r.clock .dead s.clock
      owner := r.owner (if s.owner = Owner.closing then .gone else s.owner)
      alive := false, inbox := s.inbox.close, stage := .dead } =
    { (t.record .tornDown).outline r with
      clock := r.clock .dead t.clock
      owner := r.owner (if t.owner = Owner.closing then .gone else t.owner)
      alive := false, inbox := t.inbox.close, stage := .dead }
  rw [torn.eq, clock, owner, like.inbox]

end Like

/-- The outline shows all that there is of an outline. -/
theorem outline_like (r : Regard) (s : Session) : Like r (s.outline r) s := by
  have clock : r.clock s.stage (r.clock s.stage s.clock) = r.clock s.stage s.clock := by
    cases r with
    | effects => rfl
    | labour =>
      simp only [Regard.clock]
      split <;> rfl
  have owner : r.owner (r.owner s.owner) = r.owner s.owner := by
    cases s.owner <;> cases r <;> rfl
  have seen : ∀ h, (r.see h).bind r.see = r.see h := by
    intro h
    cases h with
    | note n => cases n <;> cases r <;> rfl
    | log record => cases hp : record.event.party <;> cases r <;> simp [Regard.see, hp]
    | reached task milestone time => cases milestone <;> cases r <;> rfl
    | _ => rfl
  show { s.outline r with
    clock := r.clock s.stage (r.clock s.stage s.clock)
    owner := r.owner (r.owner s.owner)
    trail := (s.trail.filterMap r.see).filterMap r.see } = s.outline r
  rw [List.filterMap_filterMap, clock, owner, funext seen]
  rfl

end Session
end SerialDispatch
