import SerialDispatch.Proofs.Delivery.Altered
import SerialDispatch.Proofs.Dispatcher.Mailbox

/-!
# Sessions in which no callback panics

Every session has a calm counterpart: the same in all but that no callback ever panics. Until a
callback panics, whatever is done in a session has its counterpart in the calm one. Main statement:
`Session.calm_next`.
-/
namespace SerialDispatch

namespace Command

mutual

/-- The command with callbacks that never panic. -/
def calm : Command → Command
  | .start request input surface _ reactions =>
    .start request input surface none (calmReactions reactions)
  | .cancel handle => .cancel handle
  | .drop => .drop
  | .unreadable word fault => .unreadable word fault

def calmReactions : List (Trigger × List Command) → List (Trigger × List Command)
  | [] => []
  | reaction :: rest => calmReaction reaction :: calmReactions rest

def calmReaction : Trigger × List Command → Trigger × List Command
  | (trigger, commands) => (trigger, calmCommands commands)

def calmCommands : List Command → List Command
  | [] => []
  | command :: rest => command.calm :: calmCommands rest

end

/-- Calming all commands within goes through them one by one. -/
theorem calmCommands_eq (commands : List Command) :
    calmCommands commands = commands.map calm := by
  induction commands with
  | nil => rfl
  | cons command rest ih => rw [calmCommands, ih, List.map_cons]

theorem calmReactions_eq (reactions : List (Trigger × List Command)) :
    calmReactions reactions = reactions.map fun r => (r.1, r.2.map calm) := by
  induction reactions with
  | nil => rfl
  | cons reaction rest ih =>
    rw [calmReactions, ih, List.map_cons, calmReaction, calmCommands_eq]

theorem calm_calm : (command : Command) → command.calm.calm = command.calm
  | .start request input surface panicsOn reactions => by
    -- The commands of the reactions are smaller than the start that they come with.
    have same : ∀ r ∈ reactions, (r.1, (r.2.map calm).map calm) = (r.1, r.2.map calm) := by
      intro r there
      rw [List.map_map]
      exact congrArg (r.1, ·) (List.map_congr_left fun c inside => calm_calm c)
    rw [calm, calm, calmReactions_eq, calmReactions_eq, List.map_map]
    exact congrArg (Command.start request input surface none) (List.map_congr_left same)
  | .cancel _ => rfl
  | .drop => rfl
  | .unreadable _ _ => rfl
termination_by command => sizeOf command
decreasing_by
  have inner := List.sizeOf_lt_of_mem inside
  have outer := List.sizeOf_lt_of_mem there
  obtain ⟨trigger, commands⟩ := r
  simp only [Prod.mk.sizeOf_spec, Command.start.sizeOf_spec] at inner outer ⊢
  omega

@[simp] theorem word_calm (command : Command) : command.calm.word = command.word := by
  cases command <;> rfl

end Command

namespace Callback

/-- The callback if it never panics. -/
def calm (c : Callback Command) : Callback Command :=
  ⟨c.number, none, Command.calmReactions c.reactions⟩

/-- A calm callback reacts to its calls as before, with calm commands. -/
theorem reaction_calm (c : Callback Command) (trigger : Trigger) :
    c.calm.reaction trigger = (c.reaction trigger).map Command.calm := by
  obtain ⟨number, panicsOn, reactions⟩ := c
  simp only [reaction, calm, Command.calmReactions_eq]
  induction reactions with
  | nil => rfl
  | cons r rest ih =>
    rw [List.map_cons, List.lookup_cons, List.lookup_cons]
    cases trigger == r.1 with
    | true => rfl
    | false => exact ih

theorem calm_after (c : Callback Command) (trigger : Trigger) :
    (c.after trigger).calm = c.calm.after trigger := by
  simp only [calm, after, Command.calmReactions_eq, List.filter_map]
  rfl

end Callback

namespace Callbacks

def calm (cs : Callbacks Command) : Callbacks Command := cs.map fun c => (c.1, c.2.calm)

variable (cs : Callbacks Command) (id : DispatchId)

/-- The same callbacks are registered, for the same dispatches. -/
theorem find_calm : cs.calm.find? id = (cs.find? id).map Callback.calm :=
  find_alter Callback.calm cs id

theorem calm_after (e : Event) : (cs.after e).calm = cs.calm.after e :=
  alter_after Callback.calm cs Callback.calm_after e

end Callbacks

namespace Message

def calm : Message Command → Message Command
  | .attach id callback => .attach id callback.calm
  | .event e => .event e

theorem calm_eq : calm = alter Callback.calm := by
  funext m
  cases m <;> rfl

variable (batch : List (Message Command))

/-- Where a batch ends has nothing to do with the callbacks. -/
theorem nextBatch_calm (coalescing : Bool) :
    nextBatch coalescing (batch.map calm) =
      ((nextBatch coalescing batch).1.map calm, (nextBatch coalescing batch).2.map calm) := by
  rw [calm_eq]
  exact nextBatch_alter Callback.calm batch coalescing

theorem registered_calm (cs : Callbacks Command) :
    registered (batch.map calm) cs.calm = (registered batch cs).calm := by
  rw [calm_eq]
  exact registered_alter Callback.calm batch cs

theorem events_calm (coalescing : Bool) :
    events coalescing (batch.map calm) = events coalescing batch := by
  rw [calm_eq]
  exact events_alter Callback.calm batch coalescing

end Message

def BodyStep.calm : BodyStep → BodyStep
  | .command c => .command c.calm
  | step => step

def CallerStep.calm : CallerStep → CallerStep
  | .command c => .command c.calm
  | step => step

theorem BodyStep.totalCost_calm (steps : List BodyStep) :
    BodyStep.totalCost (steps.map BodyStep.calm) = BodyStep.totalCost steps := by
  unfold BodyStep.totalCost
  rw [List.map_map]
  congr 1
  refine List.map_congr_left fun step _ => ?_
  cases step <;> rfl

/-- Calm bodies cost what the others cost. -/
def Factory.calm (f : Factory) : Factory where
  body request := (f.body request).map BodyStep.calm
  bound := f.bound
  cost_le request := by
    rw [BodyStep.totalCost_calm]
    exact f.cost_le request

namespace Setup

/-- The setup whose operations start dispatches with callbacks that never panic only. -/
def calm (S : Setup) : Setup :=
  { S with registry := .ofSlots fun kind => (S.registry.slot kind).map Factory.calm }

variable (S : Setup)

theorem slot_calm (kind : Kind) :
    S.calm.registry.slot kind = (S.registry.slot kind).map Factory.calm :=
  Registry.slot_ofSlots _ kind

theorem supports_calm (kind : Kind) :
    S.calm.registry.supports kind = S.registry.supports kind := by
  rw [Registry.supports, slot_calm, Option.isSome_map]
  rfl

theorem breaks_calm (n : Nat) (kind : Kind) : S.calm.breaks n kind = S.breaks n kind := by
  rw [breaks, supports_calm]
  rfl

theorem body_calm (request : Request) :
    S.calm.body request = (S.body request).map BodyStep.calm := by
  unfold body
  rw [slot_calm]
  cases S.registry.slot request.kind <;> rfl

/-- The same kinds are refused. -/
theorem resolve_calm (kind : Kind) :
    S.calm.registry.resolve kind = (S.registry.resolve kind).map Factory.calm := by
  unfold Registry.resolve
  rw [slot_calm]
  cases S.registry.slot kind <;> rfl

end Setup

def Stage.calm : Stage → Stage
  | .running task n rest wake => .running task n (rest.map BodyStep.calm) wake
  | stage => stage

def Happening.calm : Happening → Happening
  | .sent m => .sent m.calm
  | .lost m => .lost m.calm
  | h => h

namespace Session

/-- The session if no callback in it ever panics. -/
def calm (s : Session) : Session := { s with
  stage := s.stage.calm
  mailbox := s.mailbox.map Message.calm
  callbacks := s.callbacks.calm
  trail := s.trail.map Happening.calm }

section Counterparts

variable (S : Setup) (s : Session) (task : Task)

theorem calm_record (h : Happening) : (s.record h).calm = s.calm.record h.calm := rfl

theorem calm_log (event : LogEvent) : (s.log event).calm = s.calm.log event := rfl

theorem calm_reach (milestone : Milestone) :
    (s.reach task milestone).calm = s.calm.reach task milestone := rfl

theorem calm_logWithin (event : LogEvent) :
    (s.logWithin task event).calm = s.calm.logWithin task event := rfl

theorem calm_note (n : WorkerNote) : (s.note n).calm = s.calm.note n := rfl

theorem calm_send (m : Message Command) : (s.send m).calm = s.calm.send m.calm := by
  unfold send
  rw [show s.calm.phase = s.phase from rfl]
  split
  · rw [calm_record]
    simp [calm, record, Happening.calm]
  · rfl

theorem calm_emit (id : DispatchId) (signal : Signal) :
    (s.emit id signal).calm = s.calm.emit id signal := calm_send s _

theorem calm_refuse (id : DispatchId) (token : Token) :
    (s.refuse id token).calm = s.calm.refuse id token := calm_emit _ _ _

/-- A dispatch is taken in or refused as before. -/
theorem calm_submit (callback : Nat) :
    (s.submit callback task).calm = s.calm.submit callback task := by
  unfold submit
  rw [show s.calm.inbox = s.inbox from rfl]
  cases s.inbox.submit task with
  | ok inbox => rfl
  | error e =>
    have refused := calm_refuse (s.log (.dispatchRefused task.id task.request.kind e)) task.id
      task.token
    rw [calm_log] at refused
    dsimp only
    rw [← refused]
    rfl

/-- A start is answered as before; only the callback that it brings is a calm one. -/
theorem calm_startRequest (request : Request) (input : CryptoInput) (surface : Surface)
    (callback : Callback Command) :
    s.calm.startRequest S.calm request input surface callback.calm =
      ((s.startRequest S request input surface callback).1.calm,
        (s.startRequest S request input surface callback).2) := by
  unfold startRequest
  rw [S.resolve_calm]
  cases S.registry.resolve request.kind with
  | error refusal => rfl
  | ok factory =>
    simp only [Except.map]
    split
    · rfl
    · rw [calm_submit, calm_send]
      rfl

theorem calm_cancel (handle : Nat) :
    s.calm.cancel handle = ((s.cancel handle).1.calm, (s.cancel handle).2) := by
  unfold cancel
  rw [show s.calm.handles = s.handles from rfl, show s.calm.tokens = s.tokens from rfl]
  cases s.handles[handle]? with
  | none => rfl
  | some pair =>
    dsimp only
    split <;> rfl

theorem calm_through (sink : Nat) (signal : Signal) :
    s.calm.through sink signal = ((s.through sink signal).1.calm, (s.through sink signal).2) := by
  unfold through
  rw [show s.calm.sinkHeld sink = s.sinkHeld sink from rfl]
  cases s.sinkHeld sink with
  | none => rfl
  | some id =>
    dsimp only
    rw [calm_emit, calm_record]
    rfl

/-- A command has the same effect and the same answer. -/
theorem calm_perform (command : Command) : s.calm.perform S.calm command.calm =
    ((s.perform S command).1.calm, (s.perform S command).2) := by
  cases command with
  | start request input surface panicsOn reactions =>
    simp only [Command.calm, perform, show S.calm.startLimit = S.startLimit from rfl,
      show s.calm.starts = s.starts from rfl, show s.calm.owner = s.owner from rfl]
    split
    · rfl
    · split
      · exact calm_startRequest S { s with starts := s.starts + 1 } request input surface
          ⟨s.starts, panicsOn, reactions⟩
      · rfl
  | cancel handle => exact calm_cancel s handle
  | drop =>
    simp only [Command.calm, perform, show s.calm.owner = s.owner from rfl]
    split <;> rfl
  | unreadable word fault => rfl

theorem calm_check : (s.check task).calm = s.calm.check task := by
  unfold check
  rw [show s.calm.tokens = s.tokens from rfl]
  split
  · have emitted := calm_emit ((s.reach task (.checked true)).logWithin task .cancelledBeforeStart)
      task.id (.finished .cancelledBeforeStart)
    rw [calm_logWithin, calm_reach] at emitted
    rw [← emitted]
    rfl
  · rfl

theorem calm_take (rest : List Task) :
    (s.take S task rest).calm = s.calm.take S.calm task rest := by
  unfold take
  rw [show S.calm.config = S.config from rfl]
  dsimp only
  split
  · rfl
  · exact calm_check _ task

theorem calm_construct : (s.construct S task).calm = s.calm.construct S.calm task := by
  have breaks : S.calm.breaks s.calm.constructed = S.breaks s.constructed :=
    funext fun kind => S.breaks_calm _ kind
  unfold construct
  simp only [breaks, S.body_calm]
  split <;> rfl

theorem calm_beginShutdown : s.beginShutdown.calm = s.calm.beginShutdown := by
  unfold beginShutdown
  rw [show s.calm.owner = s.owner from rfl]
  split <;> rfl

/-- Each step of a body has its counterpart, commands included. -/
theorem calm_bodyStep (n : Nat) (rest : List BodyStep) (step : BodyStep) :
    (s.bodyStep S task n rest step).calm =
      s.calm.bodyStep S.calm task n (rest.map BodyStep.calm) step.calm := by
  -- All steps but those that end the body lead to the rest of it.
  have next : ∀ {u v : Session}, u.calm = v →
      { u with stage := .running task n rest u.clock }.calm =
        { v with stage := .running task n (rest.map BodyStep.calm) v.clock } := by
    rintro u _ rfl
    rfl
  cases step with
  | progress update => exact next (calm_emit s task.id _)
  | prevent => exact next (calm_emit s task.id _)
  | stopIfCancelled steps =>
    simp only [bodyStep, BodyStep.calm,
      show s.calm.seesCancelled task = s.seesCancelled task from rfl]
    split <;> rfl
  | command command =>
    simp only [bodyStep, BodyStep.calm, calm_perform, Command.word_calm]
    exact next rfl
  | shutdown =>
    simp only [bodyStep, BodyStep.calm, ← calm_beginShutdown]
    rfl
  | _ => rfl

theorem calm_leave (result : Option Result) :
    (s.leave task result).calm = s.calm.leave task result := by
  have ended : ∀ (u : Session) (event : LogEvent) (signal : Signal),
      { (u.logWithin task event).emit task.id signal with stage := .idle, turn := .resumed }.calm =
        { (u.calm.logWithin task event).emit task.id signal with
          stage := .idle, turn := .resumed } := by
    intro u event signal
    rw [← calm_logWithin, ← calm_emit]
    rfl
  unfold leave
  split <;> exact ended _ _ _

theorem calm_discard : (s.discard task).calm = s.calm.discard task := calm_emit _ _ _

theorem calm_windDown : s.windDown.calm = s.calm.windDown := by
  have discards : s.inbox.waiting.foldl discard s.calm = (s.inbox.waiting.foldl discard s).calm :=
    List.foldl_hom calm fun u task => (calm_discard u task).symm
  unfold windDown
  rw [show s.calm.inbox = s.inbox from rfl, discards]
  rfl

theorem calm_logShutdown : s.logShutdown.calm = s.calm.logShutdown := by
  have reported : ∀ u : Session, (if u.phase = .alive then u else u.log .deliveryDied).calm =
      if u.calm.phase = .alive then u.calm else u.calm.log .deliveryDied := by
    intro u
    rw [show u.calm.phase = u.phase from rfl]
    split <;> rfl
  unfold logShutdown
  rw [show s.calm.stage = s.stage.calm from rfl]
  cases s.stage with
  | dead => exact reported (s.log .workerDied)
  | _ => exact reported s

theorem calm_finishShutdown : s.finishShutdown.calm = s.calm.finishShutdown := by
  rw [finishShutdown, calm_note, calm_logShutdown]
  rfl

theorem isOver_calm (stage : Stage) : stage.calm.isOver = stage.isOver := by cases stage <;> rfl

theorem wake_calm (stage : Stage) : stage.calm.wake = stage.wake := by cases stage <;> rfl

theorem isComplete_calm : s.calm.isComplete = s.isComplete := by
  simp only [isComplete, show s.calm.stage = s.stage.calm from rfl, isOver_calm,
    show s.calm.mailbox = s.mailbox.map Message.calm from rfl, List.isEmpty_map]
  rfl

theorem givesWay_calm : s.calm.givesWay = s.givesWay := by
  unfold givesWay
  rw [show s.calm.stage = s.stage.calm from rfl]
  cases s.stage with
  | running task n rest wake =>
    cases rest with
    | nil => rfl
    | cons step rest => cases step <;> rfl
  | _ => rfl

/-- The worker does the same. -/
theorem calm_advance : s.calm.advance? S.calm = (s.advance? S).map calm := by
  have stage : s.calm.stage = s.stage.calm := rfl
  cases hs : s.stage with
  | window task wake =>
    rw [hs] at stage
    rw [advance_window hs, advance_window stage, Option.map_some, calm_check]
    rfl
  | idle =>
    simp only [advance?, stage, hs, Stage.calm, show s.calm.inbox = s.inbox from rfl]
    split
    · rw [Option.map_some, calm_windDown]
    · cases s.inbox.waiting with
      | nil => rfl
      | cons task rest => rw [Option.map_some, calm_take]
  | ready task =>
    simp only [advance?, stage, hs, Stage.calm, Option.map_some, calm_construct]
  | running task n rest wake =>
    simp only [advance?, stage, hs, Stage.calm]
    cases rest with
    | nil => rfl
    | cons step rest => simp only [List.map_cons, Option.map_some, calm_bodyStep]
  | leaving task result =>
    simp only [advance?, stage, hs, Stage.calm, Option.map_some, calm_leave]
  | ended | dead =>
    simp only [advance?, stage, hs, Stage.calm, isComplete_calm,
      show s.calm.owner = s.owner from rfl, ← calm_finishShutdown]
    split <;> rfl

/-- What a callback does when it is called has its counterpart, command by command. -/
theorem calm_reactions (callback : Nat) (commands : List Command) :
    (commands.foldl (react S callback) s).calm =
      (commands.map Command.calm).foldl (react S.calm callback) s.calm := by
  induction commands generalizing s with
  | nil => rfl
  | cons command rest ih =>
    have first : (s.react S callback command).calm = s.calm.react S.calm callback command.calm := by
      rw [react, react, calm_perform, Command.word_calm]
      rfl
    rw [List.foldl_cons, ih, first]
    rfl

/-- An event that makes no callback panic is delivered to the same effect. -/
theorem calm_deliverEvent (e : Event) (quiet : (s.deliverEvent S e).phase ≠ .panicked) :
    (s.deliverEvent S e).calm = s.calm.deliverEvent S.calm e := by
  have known : s.calm.callbacks.find? e.id = (s.callbacks.find? e.id).map Callback.calm :=
    Callbacks.find_calm s.callbacks e.id
  rcases deliverEvent_outcome S s e with ⟨found, h⟩ | ⟨callback, found, ⟨-, h⟩ | ⟨-, h⟩⟩
  · rw [h, deliverEvent_unclaimed (known.trans (by rw [found]; rfl))]
    rfl
  · rw [h] at quiet
    exact absurd rfl quiet
  · rw [found, Option.map_some] at known
    rw [h, deliverEvent_reacts known (by simp [Callback.calm]), calm_reactions,
      Callback.reaction_calm, calm_record, show s.calm.callbacks = s.callbacks.calm from rfl,
      ← Callbacks.calm_after]
    rfl

theorem calm_deliverEvents (events : List Event)
    (quiet : (s.deliverEvents S events).phase ≠ .panicked) :
    (s.deliverEvents S events).calm = s.calm.deliverEvents S.calm events := by
  induction events generalizing s with
  | nil => rfl
  | cons e rest ih =>
    have going : (s.deliverEvent S e).phase ≠ .panicked := by
      intro panicked
      refine quiet ?_
      rw [deliverEvents, panicked]
      exact panicked
    have first := calm_deliverEvent S s e going
    have phase : (s.calm.deliverEvent S.calm e).phase = (s.deliverEvent S e).phase := by
      rw [← first]
      rfl
    rw [deliverEvents] at quiet ⊢
    rw [deliverEvents, phase]
    split
    · rename_i alive
      simp only [alive, if_true] at quiet
      rw [ih _ quiet, first]
    · exact first

/-- So is a whole batch, and delivery goes on behind it. -/
theorem calm_deliverRound (quiet : (s.deliverRound S).phase ≠ .panicked) :
    (s.deliverRound S).calm = s.calm.deliverRound S.calm := by
  unfold deliverRound at *
  rw [calm_deliverEvents S _ _ quiet]
  simp only [show S.calm.config = S.config from rfl,
    show s.calm.mailbox = s.mailbox.map Message.calm from rfl, Message.nextBatch_calm,
    Message.events_calm, show s.calm.callbacks = s.callbacks.calm from rfl,
    Message.registered_calm]
  rfl

variable {S s} {limit : Option Nat}

/-- Whatever is done next has its counterpart, unless a callback panics. -/
theorem calm_next (quiet : (s.givesWay && !s.mailbox.isEmpty) = true →
      (s.deliverRound S).phase ≠ .panicked) :
    s.calm.next? S.calm limit = (s.next? S limit).map calm := by
  unfold next?
  rw [givesWay_calm, show s.calm.mailbox = s.mailbox.map Message.calm from rfl, List.isEmpty_map,
    show s.calm.clock = s.clock from rfl, show s.calm.stage = s.stage.calm from rfl, wake_calm]
  split
  · rename_i gives
    rw [Option.map_some, calm_deliverRound S s (quiet gives)]
  · split
    · split <;> rfl
    · exact calm_advance S s

end Counterparts
end Session
end SerialDispatch
