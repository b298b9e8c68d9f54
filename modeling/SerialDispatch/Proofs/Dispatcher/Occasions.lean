import SerialDispatch.Proofs.Dispatcher.Instants

/-!
# What happens on few occasions

A dispatch is accepted by a start and cancelled by the command for it, and by nothing else; an
operation is constructed by the worker, when a dispatch is ready; a dispatch is refused by an inbox
that takes no more; a terminal signal is for nobody when delivery brings it and knows no callback;
and a shutdown in the background comes to its end when the worker has. Main statement:
`Instant.Move.occasions`.
-/
namespace SerialDispatch

/-- What happens on few occasions. -/
inductive Rarity where
  | acceptance
  | cancellation
  /-- The log entry of a request to cancel. -/
  | request
  | construction
  | refusal
  /-- A terminal signal for nobody. -/
  | orphan
  /-- The end of a shutdown in the background. -/
  | closure
  deriving DecidableEq

def Happening.rarity? : Happening → Option Rarity
  | .reached _ (.submitted _) _ => some .acceptance
  | .cancelled _ => some .cancellation
  | .reached _ (.constructed _) _ => some .construction
  | .note (.shutdownDone _) => some .closure
  | .log record =>
    match record.event with
    | .cancellationRequested _ => some .request
    | .dispatchRefused .. => some .refusal
    | .unclaimed _ .finished => some .orphan
    | _ => none
  | _ => none

theorem Happening.common_of_routine {h : Happening} (routine : h.isRoutine = true) :
    h.rarity? = none := by
  cases h with
  | reached task milestone time => cases milestone <;> first | rfl | cases routine
  | log record =>
    cases hevent : record.event <;>
      simp [Happening.isRoutine, Happening.rarity?, hevent] at routine ⊢
  | cancelled => cases routine
  | note n => cases n <;> first | rfl | cases routine
  | _ => rfl

namespace Session

/-- Of what is rare, from one session to the other only this happens; and no handle is lost. -/
structure Brings (rare : Rarity → Prop) (s t : Session) : Prop where
  handles : s.handles <+: t.handles
  few : ∃ more, t.history = s.history ++ more ∧ ∀ h ∈ more, ∀ r, h.rarity? = some r → rare r

/-- What is rare and comes of a command. -/
def mayBring (s : Session) : Command → Rarity → Prop
  | .cancel _, r => r = .cancellation ∨ r = .request
  | .start .., r => r = .acceptance ∨
    r = .refusal ∧ s.owner = .held ∧ (s.inbox.stopping = true ∨ s.inbox.closed = true)
  | _, _ => False

namespace Brings

variable {rare other : Rarity → Prop} {s t u : Session}

theorem frame (trail : t.trail = s.trail) (handles : t.handles = s.handles) : Brings rare s t :=
  ⟨handles ▸ List.prefix_rfl, [], by rw [history, trail, List.append_nil]; rfl,
    fun _ h => absurd h List.not_mem_nil⟩

theorem refl (s : Session) : Brings rare s s := frame rfl rfl

theorem trans (first : Brings rare s t) (second : Brings rare t u) : Brings rare s u := by
  obtain ⟨more, hmore, few⟩ := first.few
  obtain ⟨rest, hrest, others⟩ := second.few
  refine ⟨first.handles.trans second.handles, more ++ rest,
    by rw [hrest, hmore, List.append_assoc], fun h hh => ?_⟩
  rcases List.mem_append.1 hh with hh | hh
  · exact few h hh
  · exact others h hh

theorem mono (brings : Brings rare s t) (more : ∀ r, rare r → other r) : Brings other s t := by
  obtain ⟨handles, rest, hrest, few⟩ := brings
  exact ⟨handles, rest, hrest, fun h hh r hr => more r (few h hh r hr)⟩

theorem record (s : Session) (h : Happening) (few : ∀ r, h.rarity? = some r → rare r) :
    Brings rare s (s.record h) :=
  ⟨List.prefix_rfl, [h], history_record s h, fun k hk => by rw [List.mem_singleton.1 hk]; exact few⟩

theorem common (s : Session) {h : Happening} (common : h.rarity? = none) :
    Brings rare s (s.record h) :=
  record s h fun r hr => by rw [common] at hr; cases hr

theorem send (s : Session) (m : Message Command) : Brings rare s (s.send m) := by
  unfold Session.send
  split
  · exact (frame rfl rfl : Brings rare s { s with mailbox := s.mailbox ++ [m] }).trans
      (common _ rfl)
  · exact common s rfl

theorem emit (s : Session) (id : DispatchId) (signal : Signal) : Brings rare s (s.emit id signal) :=
  send s _

/-- Nothing that is rare is a chore. -/
theorem chores (chores : Chores s t) : Brings rare s t := by
  refine lift_parts chores refl trans fun chore => ?_
  cases chore with
  | own same => exact frame (by rw [same]) (by rw [same])
  | wrote routine => exact common _ (Happening.common_of_routine routine)
  | sent m => exact send _ m

theorem call (s : Session) (callback : Callback Command) (e : Event) :
    Brings rare s (s.call callback e) :=
  (frame rfl rfl : Brings rare s { s with callbacks := s.callbacks.after e }).trans (common _ rfl)

theorem signalStop (s : Session) (owner : Owner) : Brings rare s (s.signalStop owner) :=
  chores (.signalStop s owner)

theorem submit (s : Session) (callback : Nat) (task : Task) (acceptance : rare .acceptance)
    (refusal : s.inbox.stopping = true ∨ s.inbox.closed = true → rare .refusal) :
    Brings rare s (s.submit callback task) := by
  have handed : ∀ {u : Session} (handle : DispatchId × Token), Brings rare s u →
      Brings rare s { u with handles := u.handles ++ [handle] } :=
    fun _ brings => brings.trans ⟨List.prefix_append _ _, (refl _).few⟩
  unfold Session.submit
  refine handed _ ?_
  cases takes : s.inbox.submit task with
  | error e =>
    have refuses : s.inbox.stopping = true ∨ s.inbox.closed = true :=
      (Inbox.submit_eq_error.1 takes).imp And.left fun refused => refused.2.1
    have logged : Brings rare s (s.log (.dispatchRefused task.id task.request.kind e)) :=
      record s _ fun r hr => by cases hr; exact refusal refuses
    have raised : ∀ v : Session, Brings rare v { v with tokens := v.tokens.cancel task.token } :=
      fun _ => frame rfl rfl
    exact (logged.trans (raised _)).trans (emit _ _ _)
  | ok inbox =>
    have taken : Brings rare s { s with inbox := inbox } := frame rfl rfl
    have reached : Brings rare { s with inbox := inbox } _ :=
      record { s with inbox := inbox } (.reached task (.submitted callback) s.clock)
        fun r hr => by cases hr; exact acceptance
    exact (taken.trans reached).trans (common _ rfl)

theorem startRequest (S : Setup) (s : Session) (request : Request) (input : CryptoInput)
    (surface : Surface) (callback : Callback Command) (acceptance : rare .acceptance)
    (refusal : s.inbox.stopping = true ∨ s.inbox.closed = true → rare .refusal) :
    Brings rare s (s.startRequest S request input surface callback).1 := by
  have allotted : Brings rare s s.allot := frame rfl rfl
  unfold Session.startRequest
  cases S.registry.resolve request.kind with
  | error refusal => exact refl s
  | ok factory =>
    dsimp only
    split
    · exact allotted
    · obtain ⟨-, -, -, hside, -⟩ := send_posts s.allot (.attach s.nextId callback)
      refine (allotted.trans (send _ _)).trans
        (submit _ _ _ acceptance fun refuses => refusal ?_)
      rw [show ((s.allot).send (.attach s.nextId callback)).inbox = s.inbox from
        congrArg WorkerSide.inbox hside] at refuses
      exact refuses

theorem perform (S : Setup) (s : Session) (c : Command) :
    Brings (s.mayBring c) s (s.perform S c).1 := by
  cases c with
  | start request input surface panicsOn reactions =>
    have counted : ∀ {rare}, Brings rare s { s with starts := s.starts + 1 } := frame rfl rfl
    simp only [Session.perform]
    split
    · exact refl s
    · split
      · rename_i held
        exact counted.trans (startRequest S _ _ _ _ _ (.inl rfl)
          fun refuses => .inr ⟨rfl, held, refuses⟩)
      · exact counted
  | cancel handle =>
    simp only [Session.perform, Session.cancel]
    cases s.handles[handle]? with
    | none => exact refl s
    | some pair =>
      obtain ⟨id, token⟩ := pair
      have cancelled : ∀ tokens : TokenPool, Brings (s.mayBring (.cancel handle)) s
          ({ s with tokens := tokens }.record (.cancelled id)) := fun tokens =>
        (frame rfl rfl : Brings _ s { s with tokens := tokens }).trans
          (record _ _ fun r hr => by cases hr; exact .inl rfl)
      dsimp only
      split
      · exact cancelled s.tokens
      · exact (cancelled _).trans (record _ _ fun r hr => by cases hr; exact .inr rfl)
  | drop =>
    simp only [Session.perform]
    split
    · exact signalStop s .gone
    · exact refl s
  | unreadable word fault => exact refl s

theorem logShutdown (s : Session) : Brings rare s s.logShutdown :=
  logShutdown_induct (motive := (Brings rare s ·)) (refl s)
    (fun u brings => brings.trans (common u rfl)) fun u brings => brings.trans (common u rfl)

theorem finishShutdown (s : Session) (closure : rare .closure) :
    Brings rare s s.finishShutdown := by
  have gone : Brings rare s { s with owner := .gone } := frame rfl rfl
  exact (gone.trans (logShutdown _)).trans (record _ _ fun r hr => by cases hr; exact closure)

/-- A worker that goes on constructs an operation, or carries out a command of one, or brings a
shutdown in the background to its end, or does nothing rare. -/
theorem advance {S : Setup} (h : s.advance? S = some t) : Brings (fun r =>
    (r = .construction ∧ ∃ task, s.stage = .ready task) ∨ (r = .closure ∧ s.stage.isOver = true) ∨
      ∃ task n c rest wake, s.stage = .running task n (.command c :: rest) wake ∧
        s.mayBring c r) s t := by
  cases turn_of_advance h with
  | routine did => exact chores did
  | constructing task ready did =>
    have counted : ∀ {rare}, Brings rare s { s with constructed := s.constructed + 1 } :=
      frame rfl rfl
    refine (counted.trans (record _ _ fun r hr => ?_)).trans (chores did)
    cases hr
    exact .inl ⟨rfl, task, ready⟩
  | commanded task n c rest wake running =>
    refine (((perform S s c).mono fun r hr => ?_).trans (common _ rfl)).trans (frame rfl rfl)
    exact .inr (.inr ⟨task, n, c, rest, wake, running, hr⟩)
  | finishing halted => exact finishShutdown s (.inr (.inl ⟨rfl, halted⟩))

theorem begins {step : CallerStep} {limit : Nat} (begins : step.begins? s = some (limit, u)) :
    Brings rare s u := by
  cases begins_cases begins with
  | sleep => exact frame rfl rfl
  | shutdown => exact (signalStop s .gone).trans (frame rfl rfl)

theorem ends (limit : Nat) (step : CallerStep) : Brings rare s (step.ends limit s).1 := by
  rcases ends_cases limit s step with h | h <;> rw [h]
  · exact logShutdown s
  · exact frame rfl rfl

/-- A step of the caller that gives no way brings what its command brings. -/
theorem still {S : Setup} {step : CallerStep} (still : step.begins? s = none) :
    Brings (fun r => ∃ c, step = .command c ∧ s.mayBring c r) s (s.step S step).1 := by
  cases step with
  | command c => exact (perform S s c).mono fun r hr => ⟨c, rfl, hr⟩
  | sleep duration =>
    rw [step_sleep (rests_of_sleep still)]
    exact refl s
  | shutdown =>
    rw [step_shutdown (rests_of_shutdown still)]
    exact refl s
  | lateProgress sink update => exact chores (.through s sink _)
  | latePrevent sink => exact chores (.through s sink _)
  | teardown => exact (common s rfl).trans (frame rfl rfl)
  | _ => exact frame rfl rfl

end Brings
end Session

namespace Instant

/-- The worker is about to construct the operation of a dispatch. -/
structure Constructs (i : Instant) (task : Task) : Prop where
  works : ∃ limit step, i.focus = .work limit step
  ready : i.session.stage = .ready task
  settled : i.session.mailbox = []

theorem Constructs.next {S : Setup} {i : Instant} {task : Task} (constructs : i.Constructs task) :
    i.next? S = some { i with session := i.session.construct S task } := by
  obtain ⟨s, focus, script, answers⟩ := i
  obtain ⟨⟨limit, step, rfl⟩, ready, settled⟩ := constructs
  simp only at ready settled
  simp [next?, settled, Session.work?, Session.advance?, ready, Stage.wake]

/-- Where something rare can happen. -/
inductive Occasion (i : Instant) : Rarity → Prop
  | commanded {c : Command} {r : Rarity} (command : i.command? = some c)
      (brings : i.session.mayBring c r) : Occasion i r
  | constructing {task : Task} (constructs : i.Constructs task) : Occasion i .construction
  | orphaned {limit : Nat} {step : CallerStep} {e : Event} {rest : List Event}
      (focus : i.focus = .batch limit step (e :: rest)) (finished : e.signal.isFinished = true)
      (unknown : i.session.callbacks.find? e.id = none) : Occasion i .orphan
  | closing {limit : Nat} {step : CallerStep} (focus : i.focus = .work limit step)
    (halted : i.session.stage.isOver = true) : Occasion i .closure

/-- What is rare happens where it can and nowhere else. -/
theorem Move.occasions {S : Setup} {i j : Instant} (move : Move S i j) :
    Session.Brings i.Occasion i.session j.session := by
  cases move with
  | @still s step script answers still =>
    refine (Session.Brings.still still).mono ?_
    rintro r ⟨c, rfl, hr⟩
    exact .commanded rfl hr
  | begun begins => exact .begins begins
  | @worked s t step script answers limit settled works =>
    rcases Session.work_cases works with rfl | ⟨ready, works⟩
    · exact .frame rfl rfl
    · refine (Session.Brings.advance works).mono ?_
      rintro r (⟨rfl, task, hs⟩ | ⟨rfl, halted⟩ | ⟨task, n, c, rest, wake, hs, hr⟩)
      · refine @Occasion.constructing _ task ⟨⟨limit, step, rfl⟩, hs, ?_⟩
        simpa [Session.givesWay, hs] using settled
      · exact .closing rfl halted
      · exact .commanded (c := c) (command_of_running hs ready _ _ _ _) hr
  | @ended s step _ _ limit => exact .ends limit step
  | @unclaimed s _ _ _ _ e rest unknown =>
    refine .record s _ fun r hr => ?_
    cases hsignal : e.signal with
    | finished outcome =>
      rw [hsignal] at hr
      cases hr
      exact .orphaned rfl (by rw [hsignal]; rfl) unknown
    | progress update => rw [hsignal] at hr; cases hr
    | preventCancel => rw [hsignal] at hr; cases hr
  | @panicked s _ _ _ _ e _ callback =>
    exact (Session.Brings.call s callback e).trans (.frame rfl rfl)
  | @called s _ _ _ _ e _ callback => exact .call s callback e
  | @reacted s _ _ _ _ _ callback c rest =>
    refine Session.Brings.trans ?_ (.common _ rfl)
    exact (Session.Brings.perform S s c).mono fun r hr => .commanded rfl hr
  | _ => exact .frame rfl rfl

/-- Handles stand for what they stand for. -/
theorem handles_leads {S : Setup} {i j : Instant} (leads : Leads S i j) :
    i.session.handles <+: j.session.handles := by
  induction leads with
  | refl => exact List.prefix_rfl
  | tail _ next ih => exact ih.trans (move_of_next next).occasions.handles

/-- Whatever is rare and has happened has had its occasion. -/
theorem Occurs.occasion {S : Setup} {steps : List CallerStep} {k : Instant} {h : Happening}
    {r : Rarity} (occurs : Occurs S steps k) (rare : h.rarity? = some r)
    (happened : h ∈ k.session.history) :
    ∃ i j, Occurs S steps i ∧ i.next? S = some j ∧ Leads S j k ∧ i.Occasion r ∧
      ∃ more, j.session.history = i.session.history ++ more ∧ h ∈ more := by
  induction occurs with
  | refl => exact absurd happened List.not_mem_nil
  | @tail i j before next ih =>
    obtain ⟨more, hmore, few⟩ := (move_of_next next).occasions.few
    rw [hmore] at happened
    rcases List.mem_append.1 happened with early | now
    · obtain ⟨i, j, earlier, goes, leads, occasion⟩ := ih early
      exact ⟨i, j, earlier, goes, leads.tail next, occasion⟩
    · exact ⟨i, j, before, next, .refl, few h now r rare, more, hmore, now⟩

/-- The end of a script is one of its instants. -/
theorem occurs_last (S : Setup) (steps : List CallerStep) :
    Occurs S steps (last (Session.start.runScript S steps, Session.start.answers S steps)) :=
  leads_outcome (first steps)

end Instant
end SerialDispatch
