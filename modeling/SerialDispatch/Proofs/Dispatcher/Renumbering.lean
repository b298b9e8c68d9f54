import SerialDispatch.Proofs.Delivery.Altered
import SerialDispatch.Proofs.Dispatcher.Enrolment

/-!
# Callbacks under other numbers

Callbacks are numbered in the order of the starts, and the numbers are only written down. Nothing
that is done looks at them, nor at what has happened before, nor at what the caller was answered
before. So an instant with other numbers and another past goes on to what it would go on to, with
other numbers and that past, as long as the callbacks of new starts get their numbers alike. Main
statements: `Instant.next_recount`, `Instant.outcome_recount`.
-/
namespace SerialDispatch

/-- Another count of the starts. -/
structure Recount where
  /-- What callbacks are numbered. -/
  number : Nat → Nat
  /-- How many starts more were counted. -/
  more : Nat
  /-- What had happened before, the latest first. -/
  past : List Happening
  /-- What the caller was answered before. -/
  answered : List (Reply × Nat)

/-- The next start gives its callback the number that it is to have. -/
structure Recount.Regular (r : Recount) (S T : Setup) (starts : Nat) : Prop where
  limit : T.startLimit ≤ starts + r.more ↔ S.startLimit ≤ starts
  number : starts < S.startLimit → r.number starts = starts + r.more

/-- The setup for another number of starts. -/
def Setup.limited (S : Setup) (limit : Nat) : Setup := { S with startLimit := limit }

section Data

variable (r : Recount)

def Callback.recount (c : Callback Command) : Callback Command :=
  { c with number := r.number c.number }

def Reply.recount : Reply → Reply
  | .started callback handle => .started (r.number callback) handle
  | .startPanicked callback panic => .startPanicked (r.number callback) panic
  | reply => reply

def WorkerNote.recount : WorkerNote → WorkerNote
  | .stepped n word reply => .stepped n word (reply.recount r)
  | note => note

def Milestone.recount : Milestone → Milestone
  | .submitted callback => .submitted (r.number callback)
  | milestone => milestone

def Happening.recount : Happening → Happening
  | .sent m => .sent (m.alter (Callback.recount r))
  | .lost m => .lost (m.alter (Callback.recount r))
  | .told callback e => .told (r.number callback) e
  | .did callback word reply => .did (r.number callback) word (reply.recount r)
  | .note n => .note (n.recount r)
  | .reached task milestone time => .reached task (milestone.recount r) time
  | h => h

def Focus.recount : Focus → Focus
  | .reaction limit step events callback commands =>
    .reaction limit step events (r.number callback) commands
  | focus => focus

theorem Callback.recount_after (c : Callback Command) (trigger : Trigger) :
    (c.after trigger).recount r = (c.recount r).after trigger := rfl

theorem Focus.recount_onward (phase : Phase) (limit : Nat) (step : CallerStep)
    (events : List Event) :
    (Focus.onward phase limit step events).recount r = .onward phase limit step events := by
  unfold Focus.onward
  split <;> rfl

end Data

namespace Session

/-- The session under another count. -/
def recount (r : Recount) (s : Session) : Session := { s with
  starts := s.starts + r.more
  mailbox := s.mailbox.map (Message.alter (Callback.recount r))
  callbacks := s.callbacks.alter (Callback.recount r)
  trail := s.trail.map (Happening.recount r) ++ r.past }

section Counterparts

variable (r : Recount) (S : Setup) (s : Session) (task : Task)

theorem recount_record (h : Happening) :
    (s.record h).recount r = (s.recount r).record (h.recount r) := rfl

theorem recount_log (event : LogEvent) : (s.log event).recount r = (s.recount r).log event := rfl

theorem recount_logWithin (event : LogEvent) :
    (s.logWithin task event).recount r = (s.recount r).logWithin task event := rfl

theorem recount_send (m : Message Command) :
    (s.send m).recount r = (s.recount r).send (m.alter (Callback.recount r)) := by
  unfold send
  rw [show (s.recount r).phase = s.phase from rfl]
  split
  · rw [recount_record]
    simp [recount, record, Happening.recount]
  · rfl

theorem recount_emit (id : DispatchId) (signal : Signal) :
    (s.emit id signal).recount r = (s.recount r).emit id signal := recount_send r s _

theorem recount_refuse (id : DispatchId) (token : Token) :
    (s.refuse id token).recount r = (s.recount r).refuse id token := recount_emit r _ _ _

theorem recount_submit (callback : Nat) : (s.submit callback task).recount r =
    (s.recount r).submit (r.number callback) task := by
  unfold submit
  rw [show (s.recount r).inbox = s.inbox from rfl]
  cases s.inbox.submit task with
  | ok inbox => rfl
  | error e =>
    have refused := recount_refuse r (s.log (.dispatchRefused task.id task.request.kind e)) task.id
      task.token
    rw [recount_log] at refused
    dsimp only
    rw [← refused]
    rfl

theorem recount_startRequest (request : Request) (input : CryptoInput) (surface : Surface)
    (callback : Callback Command) :
    (s.recount r).startRequest S request input surface (callback.recount r) =
      ((s.startRequest S request input surface callback).1.recount r,
        (s.startRequest S request input surface callback).2.recount r) := by
  unfold startRequest
  cases S.registry.resolve request.kind with
  | error refusal => rfl
  | ok factory =>
    dsimp only
    split
    · rfl
    · rw [recount_submit, recount_send]
      rfl

theorem recount_cancel (handle : Nat) : (s.recount r).cancel handle =
    ((s.cancel handle).1.recount r, (s.cancel handle).2.recount r) := by
  unfold cancel
  rw [show (s.recount r).handles = s.handles from rfl,
    show (s.recount r).tokens = s.tokens from rfl]
  cases s.handles[handle]? with
  | none => rfl
  | some pair =>
    dsimp only
    split <;> rfl

theorem recount_through (sink : Nat) (signal : Signal) : (s.recount r).through sink signal =
    ((s.through sink signal).1.recount r, (s.through sink signal).2.recount r) := by
  unfold through
  rw [show (s.recount r).sinkHeld sink = s.sinkHeld sink from rfl]
  cases s.sinkHeld sink with
  | none => rfl
  | some id =>
    dsimp only
    rw [recount_emit, recount_record]
    rfl

/-- A command has the same effect, under the other count. -/
theorem recount_perform (limit : Nat) (command : Command)
    (regular : ∀ request input surface panicsOn reactions,
      command = .start request input surface panicsOn reactions →
        r.Regular S (S.limited limit) s.starts) :
    (s.recount r).perform (S.limited limit) command =
      ((s.perform S command).1.recount r, (s.perform S command).2.recount r) := by
  cases command with
  | start request input surface panicsOn reactions =>
    have regular := regular _ _ _ _ _ rfl
    simp only [perform, show (s.recount r).starts = s.starts + r.more from rfl,
      show (s.recount r).owner = s.owner from rfl, regular.limit]
    split
    · rfl
    · rename_i below
      have number := regular.number (Nat.lt_of_not_le below)
      rw [Nat.add_right_comm, ← number]
      split
      · exact recount_startRequest r S { s with starts := s.starts + 1 } request input surface
          ⟨s.starts, panicsOn, reactions⟩
      · rfl
  | cancel handle => exact recount_cancel r s handle
  | drop =>
    simp only [perform, show (s.recount r).owner = s.owner from rfl]
    split <;> rfl
  | unreadable word fault => rfl

theorem recount_check : (s.check task).recount r = (s.recount r).check task := by
  unfold check
  rw [show (s.recount r).tokens = s.tokens from rfl]
  split
  · have emitted := recount_emit r
      ((s.reach task (.checked true)).logWithin task .cancelledBeforeStart)
      task.id (.finished .cancelledBeforeStart)
    rw [recount_logWithin] at emitted
    exact congrArg (fun u : Session => { u with stage := .idle }) emitted
  · rfl

theorem recount_take (rest : List Task) :
    (s.take S task rest).recount r = (s.recount r).take S task rest := by
  unfold take
  dsimp only
  split
  · rfl
  · exact recount_check r _ task

theorem recount_construct : (s.construct S task).recount r = (s.recount r).construct S task := by
  unfold construct
  dsimp only
  rw [show (s.recount r).constructed = s.constructed from rfl]
  split <;> rfl

theorem recount_beginShutdown : s.beginShutdown.recount r = (s.recount r).beginShutdown := by
  unfold beginShutdown
  rw [show (s.recount r).owner = s.owner from rfl]
  split <;> rfl

theorem recount_bodyStep (limit : Nat) (n : Nat) (rest : List BodyStep) (step : BodyStep)
    (regular : ∀ request input surface panicsOn reactions,
      step = .command (.start request input surface panicsOn reactions) →
        r.Regular S (S.limited limit) s.starts) :
    (s.bodyStep S task n rest step).recount r =
      (s.recount r).bodyStep (S.limited limit) task n rest step := by
  have next : ∀ {u v : Session}, u.recount r = v →
      { u with stage := .running task n rest u.clock }.recount r =
        { v with stage := .running task n rest v.clock } := by
    rintro u _ rfl
    rfl
  cases step with
  | progress update => exact next (recount_emit r s task.id _)
  | prevent => exact next (recount_emit r s task.id _)
  | stopIfCancelled steps =>
    simp only [bodyStep, show (s.recount r).seesCancelled task = s.seesCancelled task from rfl]
    split <;> rfl
  | command command =>
    have performed := recount_perform r S s limit command fun _ _ _ _ _ same =>
      regular _ _ _ _ _ (congrArg BodyStep.command same)
    simp only [bodyStep, performed]
    exact next rfl
  | shutdown =>
    simp only [bodyStep, ← recount_beginShutdown]
    rfl
  | _ => rfl

theorem recount_leave (result : Option Result) :
    (s.leave task result).recount r = (s.recount r).leave task result := by
  have ended : ∀ (u : Session) (event : LogEvent) (signal : Signal),
      { (u.logWithin task event).emit task.id signal with
        stage := .idle, turn := .resumed }.recount r =
        { ((u.recount r).logWithin task event).emit task.id signal with
          stage := .idle, turn := .resumed } := by
    intro u event signal
    rw [← recount_logWithin, ← recount_emit]
    rfl
  unfold leave
  split <;> exact ended _ _ _

theorem recount_discard : (s.discard task).recount r = (s.recount r).discard task :=
  recount_emit r _ _ _

theorem recount_windDown : s.windDown.recount r = (s.recount r).windDown := by
  have discards : s.inbox.waiting.foldl discard (s.recount r) =
      (s.inbox.waiting.foldl discard s).recount r :=
    List.foldl_hom (recount r) fun u task => (recount_discard r u task).symm
  unfold windDown
  rw [show (s.recount r).inbox = s.inbox from rfl, discards]
  rfl

theorem recount_logShutdown : s.logShutdown.recount r = (s.recount r).logShutdown := by
  have reported : ∀ u : Session, (if u.phase = .alive then u else u.log .deliveryDied).recount r =
      if (u.recount r).phase = .alive then u.recount r else (u.recount r).log .deliveryDied := by
    intro u
    rw [show (u.recount r).phase = u.phase from rfl]
    split <;> rfl
  unfold logShutdown
  rw [show (s.recount r).stage = s.stage from rfl]
  cases s.stage with
  | dead => exact reported (s.log .workerDied)
  | _ => exact reported s

theorem recount_finishShutdown : s.finishShutdown.recount r = (s.recount r).finishShutdown := by
  rw [finishShutdown, finishShutdown, note, recount_record, recount_logShutdown]
  rfl

theorem isComplete_recount : (s.recount r).isComplete = s.isComplete := by
  simp only [isComplete, show (s.recount r).stage = s.stage from rfl,
    show (s.recount r).mailbox = s.mailbox.map _ from rfl, List.isEmpty_map]
  rfl

/-- The worker does the same. -/
theorem recount_advance (limit : Nat)
    (regular : ∀ task n rest wake request input surface panicsOn reactions,
      s.stage = .running task n (.command (.start request input surface panicsOn reactions) :: rest)
        wake → r.Regular S (S.limited limit) s.starts) :
    (s.recount r).advance? (S.limited limit) = (s.advance? S).map (recount r) := by
  have stage : (s.recount r).stage = s.stage := rfl
  have inbox : (s.recount r).inbox = s.inbox := rfl
  have owner : (s.recount r).owner = s.owner := rfl
  cases hs : s.stage with
  | window task wake =>
    rw [advance_window hs, advance_window (stage.trans hs), Option.map_some, recount_check]
    rfl
  | idle =>
    simp only [advance?, stage, hs, inbox]
    split
    · rw [Option.map_some, recount_windDown]
    · cases s.inbox.waiting with
      | nil => rfl
      | cons task rest =>
        rw [Option.map_some, recount_take]
        rfl
  | ready task =>
    simp only [advance?, stage, hs, Option.map_some, recount_construct]
    rfl
  | running task n rest wake =>
    simp only [advance?, stage, hs]
    cases rest with
    | nil => rfl
    | cons step rest =>
      simp only [Option.map_some]
      rw [recount_bodyStep r S s task limit n rest step fun _ _ _ _ _ same =>
        regular _ _ _ _ _ _ _ _ _ (by rw [hs, same])]
  | leaving task result =>
    simp only [advance?, stage, hs, Option.map_some, recount_leave]
  | ended | dead =>
    simp only [advance?, stage, hs, isComplete_recount, owner, ← recount_finishShutdown]
    split <;> rfl

theorem recount_taken : (s.taken S).recount r = (s.recount r).taken S := by
  unfold taken
  rw [show (s.recount r).mailbox = s.mailbox.map _ from rfl, Message.nextBatch_alter,
    show (s.recount r).callbacks = s.callbacks.alter _ from rfl, Message.registered_alter]
  rfl

theorem recount_dueEvents : (s.recount r).dueEvents S = s.dueEvents S := by
  unfold dueEvents
  rw [show (s.recount r).mailbox = s.mailbox.map _ from rfl, Message.nextBatch_alter,
    Message.events_alter]

theorem recount_call (callback : Callback Command) (e : Event) :
    (s.call callback e).recount r = (s.recount r).call (callback.recount r) e := by
  unfold call
  rw [recount_record, show (s.recount r).callbacks = s.callbacks.alter _ from rfl,
    ← Callbacks.alter_after _ _ (Callback.recount_after r)]
  rfl

/-- A step of the caller that gives no way has the same effect. -/
theorem recount_still (limit : Nat) {step : CallerStep} (still : step.begins? s = none)
    (regular : ∀ request input surface panicsOn reactions,
      step = .command (.start request input surface panicsOn reactions) →
        r.Regular S (S.limited limit) s.starts) :
    (s.recount r).step (S.limited limit) step =
      ((s.step S step).1.recount r, (s.step S step).2.recount r) := by
  cases step with
  | command command =>
    exact recount_perform r S s limit command
      fun request input surface panicsOn reactions same =>
        regular request input surface panicsOn reactions (congrArg CallerStep.command same)
  | sleep duration =>
    have rests := rests_of_sleep still
    rw [step_sleep rests, step_sleep (s := s.recount r) rests]
    simp only [show (s.recount r).alive = s.alive from rfl]
    split <;> rfl
  | shutdown =>
    have rests := rests_of_shutdown still
    rw [step_shutdown rests]
    exact step_shutdown rests
  | lateProgress sink update => exact recount_through r s sink _
  | latePrevent sink => exact recount_through r s sink _
  | _ => rfl

theorem recount_begins (step : CallerStep) : step.begins? (s.recount r) =
    (step.begins? s).map fun run => (run.1, run.2.recount r) := by
  cases step with
  | sleep duration =>
    simp only [CallerStep.begins?, show (s.recount r).alive = s.alive from rfl]
    split <;> rfl
  | shutdown =>
    simp only [CallerStep.begins?, show (s.recount r).alive = s.alive from rfl,
      show (s.recount r).owner = s.owner from rfl]
    split <;> rfl
  | _ => rfl

theorem recount_ends (limit : Nat) (step : CallerStep) : step.ends limit (s.recount r) =
    ((step.ends limit s).1.recount r, (step.ends limit s).2.recount r) := by
  cases step with
  | shutdown =>
    simp only [CallerStep.ends, isComplete_recount, ← recount_logShutdown]
    split <;> rfl
  | _ => rfl

end Counterparts
end Session

namespace Instant

/-- The instant under another count. -/
def recount (r : Recount) (i : Instant) : Instant where
  session := i.session.recount r
  focus := i.focus.recount r
  script := i.script
  answers := r.answered ++ i.answers.map fun answer => (answer.1.recount r, answer.2)

/-- A start that comes next is counted alike. -/
def Counts (r : Recount) (S T : Setup) (i : Instant) : Prop :=
  ∀ request input surface panicsOn reactions,
    i.command? = some (.start request input surface panicsOn reactions) →
      r.Regular S T i.session.starts

variable {r : Recount} {S : Setup} {limit : Nat} {i j : Instant}

theorem recount_answered (i : Instant) (done : Session × Reply) (script : List CallerStep) :
    (i.answered done script).recount r =
      (i.recount r).answered (done.1.recount r, done.2.recount r) script := by
  simp [recount, answered, Focus.recount, Session.recount]

/-- The next thing that the worker or the clock does is the same. -/
theorem work_recount {s : Session} {horizon : Nat} {step : CallerStep} {script : List CallerStep}
    {answers : List (Reply × Nat)}
    (counts : Counts r S (S.limited limit) ⟨s, .work horizon step, script, answers⟩) :
    (s.recount r).work? (S.limited limit) (some horizon) =
      (s.work? S (some horizon)).map (Session.recount r) := by
  simp only [Session.work?, show (s.recount r).clock = s.clock from rfl,
    show (s.recount r).stage = s.stage from rfl]
  split
  · split <;> rfl
  · rename_i ready
    exact Session.recount_advance r S s limit fun task n rest wake request input surface panicsOn
      reactions running => counts request input surface panicsOn reactions
        (command_of_running running (Nat.le_of_not_lt ready) horizon step script answers)

/-- What comes next is the same under the other count. -/
theorem next_recount (counts : i.Counts r S (S.limited limit)) :
    (i.recount r).next? (S.limited limit) = (i.next? S).map (recount r) := by
  obtain ⟨s, focus, script, answers⟩ := i
  cases focus with
  | caller =>
    cases script with
    | nil => rfl
    | cons step rest =>
      have begins := Session.recount_begins r s step
      cases hs : step.begins? s with
      | none =>
        rw [hs] at begins
        have done := Session.recount_still r S s limit hs fun request input surface panicsOn
          reactions same => counts request input surface panicsOn reactions (by rw [same]; rfl)
        simp only [next?, recount, Focus.recount, begins, hs, Option.map_none, done,
          Option.map_some]
        exact congrArg some (recount_answered ⟨s, .caller, step :: rest, answers⟩ _ _).symm
      | some run =>
        rw [hs] at begins
        simp only [next?, recount, Focus.recount, begins, hs, Option.map_some]
  | work horizon step =>
    have works := work_recount counts
    simp only [next?, recount, Focus.recount, show (s.recount r).givesWay = s.givesWay from rfl,
      show (s.recount r).mailbox = s.mailbox.map _ from rfl, List.isEmpty_map, works,
      ← Session.recount_taken, Session.recount_dueEvents, Session.recount_ends]
    split
    · rfl
    · cases s.work? S (some horizon) with
      | none =>
        exact congrArg some (recount_answered ⟨s, .work horizon step, script, answers⟩ _ _).symm
      | some t => rfl
  | batch horizon step events =>
    cases events with
    | nil => rfl
    | cons e rest =>
      simp only [next?, recount, Focus.recount,
        show (s.recount r).callbacks = s.callbacks.alter _ from rfl, Callbacks.find_alter]
      cases s.callbacks.find? e.id with
      | none =>
        simp only [Option.map_none, Option.map_some, recount, Focus.recount_onward]
        rfl
      | some callback =>
        simp only [Option.map_some, ← Session.recount_call]
        rw [show (callback.recount r).panicsOn = callback.panicsOn from rfl]
        split <;> rfl
  | reaction horizon step events callback commands =>
    cases commands with
    | nil =>
      simp only [next?, Option.map_some, recount, Focus.recount_onward]
      rfl
    | cons c rest =>
      have performed := Session.recount_perform r S s limit c fun request input surface panicsOn
        reactions same => counts request input surface panicsOn reactions (by rw [same]; rfl)
      simp only [next?, recount, Focus.recount, Session.react, performed, Option.map_some]
      rfl

/-- The way from one instant to another leads the same way under another count, as long as the
starts on it are counted alike. -/
theorem leads_recount (limit : Nat) (leads : Leads S i j) (counts : ∀ k next, Leads S i k →
    k.next? S = some next → Leads S next j → k.Counts r S (S.limited limit)) :
    Leads (S.limited limit) (i.recount r) (j.recount r) := by
  induction leads with
  | refl => exact .refl
  | @tail k j before next ih =>
    refine (ih fun k' next' first goes rest => counts k' next' first goes (rest.tail next)).tail ?_
    rw [next_recount (counts k j before next .refl), next]
    rfl

/-- What is done from an instant on comes to the same under another count. -/
theorem outcome_recount (limit : Nat) (regular : ∀ n, i.session.starts ≤ n →
    n ≤ (i.outcome S).1.starts → r.Regular S (S.limited limit) n) :
    (i.recount r).outcome (S.limited limit) = ((i.outcome S).1.recount r,
      r.answered ++ (i.outcome S).2.map fun answer => (answer.1.recount r, answer.2)) := by
  refine (leads_outcome (i.recount r)).unique (leads_recount limit (leads_outcome i) ?_)
  intro k next before goes rest _ _ _ _ _ _
  exact regular _ (starts_leads before) (starts_leads (.head goes rest))

/-- No number is in use that was not yet given to a callback. -/
theorem Occurs.recount_eq {steps : List CallerStep} {k : Instant} (occurs : Occurs S steps k)
    (more : r.more = 0) (past : r.past = []) (answered : r.answered = [])
    (same : ∀ n < k.session.starts, r.number n = n) : k.recount r = k := by
  induction occurs with
  | refl =>
    obtain ⟨number, _, _, _⟩ := r
    cases more
    cases past
    cases answered
    rfl
  | @tail i j before next ih =>
    have earlier : i.recount r = i :=
      ih fun n hn => same n (Nat.lt_of_lt_of_le hn (starts_next next))
    have counts : i.Counts r S (S.limited S.startLimit) := by
      intro request input surface panicsOn reactions command
      refine ⟨by rw [more]; exact Iff.rfl, fun room => ?_⟩
      have counted := starts_of_start next command
      rw [if_neg (Nat.not_le_of_lt room)] at counted
      rw [more, same _ (by rw [counted]; exact Nat.lt_succ_self _), Nat.add_zero]
    -- An instant that is its own recount goes on to the recount of what it goes on to.
    have both := next_recount counts
    rw [earlier, next] at both
    exact Option.some.inj (both.symm.trans next)

end Instant

section Same

variable {r : Recount} (same : ∀ n, r.number n = n)
include same

theorem Callback.recount_same (c : Callback Command) : c.recount r = c := by
  rw [recount, same]

theorem Message.recount_same (m : Message Command) : m.alter (Callback.recount r) = m := by
  cases m with
  | attach id callback => rw [alter, Callback.recount_same same]
  | event e => rfl

theorem Callbacks.recount_same (cs : Callbacks Command) : cs.alter (Callback.recount r) = cs := by
  simp only [alter, Callback.recount_same same]
  exact List.map_id _

theorem Reply.recount_same (reply : Reply) : reply.recount r = reply := by
  cases reply <;> simp only [recount, same]

theorem WorkerNote.recount_same (note : WorkerNote) : note.recount r = note := by
  cases note <;> simp only [recount, Reply.recount_same same]

theorem Milestone.recount_same (milestone : Milestone) : milestone.recount r = milestone := by
  cases milestone <;> simp only [recount, same]

/-- What happens is the same if no number is changed. -/
theorem Happening.recount_same (h : Happening) : h.recount r = h := by
  cases h <;> simp only [recount, same, Message.recount_same same, Reply.recount_same same,
    WorkerNote.recount_same same, Milestone.recount_same same]

theorem Session.recount_same (s : Session) (more : r.more = 0) :
    s.recount r = { s with trail := s.trail ++ r.past } := by
  have mailbox : s.mailbox.map (Message.alter (Callback.recount r)) = s.mailbox :=
    (List.map_congr_left fun m _ => Message.recount_same same m).trans (List.map_id _)
  have trail : s.trail.map (Happening.recount r) = s.trail :=
    (List.map_congr_left fun h _ => Happening.recount_same same h).trans (List.map_id _)
  simp only [recount, mailbox, trail, Callbacks.recount_same same, more, Nat.add_zero]

end Same

namespace Happening

variable (r : Recount) (h : Happening)

theorem log_recount : (h.recount r).log? = h.log? := by
  cases h <;> rfl

theorem told_recount :
    (h.recount r).told? = h.told?.map fun call => (r.number call.1, call.2) := by
  cases h <;> rfl

theorem message_recount :
    (h.recount r).message? = h.message?.map (Message.alter (Callback.recount r)) := by
  cases h <;> rfl

end Happening

section Histories

variable (r : Recount) (history : List Happening)

theorem logsIn_recount : logsIn (history.map (Happening.recount r)) = logsIn history := by
  rw [logsIn, List.filterMap_map]
  exact List.filterMap_congr fun h _ => h.log_recount r

theorem toldIn_recount : toldIn (history.map (Happening.recount r)) =
    (toldIn history).map fun call => (r.number call.1, call.2) := by
  rw [toldIn, toldIn, List.filterMap_map, List.map_filterMap]
  exact List.filterMap_congr fun h _ => h.told_recount r

theorem messagesIn_recount : messagesIn (history.map (Happening.recount r)) =
    (messagesIn history).map (Message.alter (Callback.recount r)) := by
  rw [messagesIn, messagesIn, List.filterMap_map, List.map_filterMap]
  exact List.filterMap_congr fun h _ => h.message_recount r

end Histories
end SerialDispatch
