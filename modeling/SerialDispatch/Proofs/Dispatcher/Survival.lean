import SerialDispatch.Proofs.Dispatcher.Caller
import SerialDispatch.Proofs.Dispatcher.Evaluation
import SerialDispatch.Proofs.Dispatcher.Roster

/-!
# The worker survives what it runs

Whatever operations, factories and callbacks do, panicking included, the worker goes on: it is never
found dead, starts are refused only after all that it runs on was taken away, and as long as no
callback has panicked delivery has a callback for every terminal signal. Main statement:
`Session.worker_survives`.
-/
namespace SerialDispatch

/-- The events that delivery has still to bring of its batch. -/
def Focus.due : Focus → List Event
  | .batch _ _ events | .reaction _ _ events _ _ => events
  | _ => []

/-- Whether delivery is in the middle of a batch. -/
def Focus.isBringing : Focus → Bool
  | .batch .. | .reaction .. => true
  | _ => false

theorem Focus.due_onward (limit : Nat) (step : CallerStep) (events : List Event) :
    (Focus.onward .alive limit step events).due = events := rfl

namespace Instant

variable {S : Setup} {i j : Instant} {steps : List CallerStep}

/-- Delivery goes on, or it has ended for good. -/
def Poised (i : Instant) : Prop :=
  i.session.phase = .alive ∨
    i.session.Quiet ∧ i.focus.isBringing = false ∧
      (i.session.phase = .vanished → i.session.history.any Happening.isTearing = true)

theorem torn_of_past {history later : List Happening} (past : history <+: later)
    (torn : history.any Happening.isTearing = true) : later.any Happening.isTearing = true := by
  obtain ⟨rest, rfl⟩ := past
  rw [List.any_append, torn, Bool.true_or]

theorem torn_of_teardown (s : Session) : s.teardown.history.any Happening.isTearing = true := by
  simp [Session.teardown, Session.history, Session.record, Happening.isTearing]

/-- Once delivery has ended nothing is delivered, and it stays so. -/
theorem Move.mutes (move : Move S i j) (quiet : i.session.Quiet)
    (resting : i.focus.isBringing = false) :
    Session.Mutes i.session j.session ∧ j.focus.isBringing = false ∧
      (j.session.phase = i.session.phase ∨ j.session.phase = .vanished ∧
        j.session.history.any Happening.isTearing = true) := by
  cases move with
  | @still s step script answers still =>
    refine ⟨quiet.step S step, rfl, ?_⟩
    rcases Session.acts_of_still (S := S) still with ⟨acts, -⟩ | rfl
    · exact .inl acts.phase
    · exact .inr ⟨rfl, torn_of_teardown s⟩
  | begun begins =>
    have acts := (Session.acts_of_begins begins).1
    exact ⟨quiet.acts acts, rfl, .inl acts.phase⟩
  | taken gives waiting => exact absurd quiet.2 waiting
  | worked settled works =>
    rw [← Session.next_of_settled settled] at works
    exact ⟨quiet.next works, rfl, .inl (Session.phase_of_settled settled works)⟩
  | ended => exact ⟨quiet.ends _ _, rfl, .inl (Session.phase_ends _ _ _)⟩
  | _ => cases resting

/-- Delivery ends when what it runs on is taken away, or when a callback panics. -/
theorem Move.parts (move : Move S i j) (alive : i.session.phase = .alive) :
    j.session.phase = .alive ∨ j.session = i.session.teardown ∧ j.focus = .caller ∨
      ∃ limit step e rest callback, i.focus = .batch limit step (e :: rest) ∧
        i.session.callbacks.find? e.id = some callback ∧
        j.session = (i.session.call callback e).panicDelivery ∧ j.focus = .work limit step := by
  cases move with
  | @still s step script answers still =>
    rcases Session.acts_of_still (S := S) still with ⟨acts, -⟩ | rfl
    · exact .inl (acts.phase.trans alive)
    · exact .inr (.inl ⟨rfl, rfl⟩)
  | begun begins => exact .inl ((Session.acts_of_begins begins).1.phase.trans alive)
  | worked settled works =>
    rw [← Session.next_of_settled settled] at works
    exact .inl ((Session.phase_of_settled settled works).trans alive)
  | ended => exact .inl ((Session.phase_ends _ _ _).trans alive)
  | panicked found => exact .inr (.inr ⟨_, _, _, _, _, rfl, found, rfl, rfl⟩)
  | reacted => exact .inl ((Session.Posts.react S _ _ _).phase.trans alive)
  | _ => exact .inl alive

theorem Move.poised (move : Move S i j) (poised : i.Poised) : j.Poised := by
  rcases poised with alive | ⟨quiet, resting, vanished⟩
  · rcases move.parts alive with alive | ⟨torn, focus⟩ | ⟨limit, step, e, rest, callback, -, -,
      panicked, focus⟩
    · exact .inl alive
    · refine .inr ⟨?_, by rw [focus]; rfl, fun _ => ?_⟩
      · rw [torn]
        exact (Session.Quiet.teardown _).quiet
      · rw [torn]
        exact torn_of_teardown _
    · rw [Poised, panicked, focus]
      exact .inr ⟨⟨(fun h => by cases h), rfl⟩, rfl, (fun h => by cases h)⟩
  · obtain ⟨mutes, rests, phase⟩ := move.mutes quiet resting
    refine .inr ⟨mutes.quiet, rests, fun gone => ?_⟩
    rcases phase with same | ⟨-, torn⟩
    · exact torn_of_past move.past (vanished (same ▸ gone))
    · exact torn

theorem Occurs.poised (occurs : Occurs S steps i) : i.Poised := by
  induction occurs with
  | refl => exact .inl rfl
  | tail _ next ih => exact (move_of_next next).poised ih

/-- Delivery keeps its roster from one instant to the next. -/
theorem Move.musters (move : Move S i j) (booked : Session.Booked S i.session)
    (musters : i.session.phase = .alive → ∃ passed, i.session.Musters i.focus.due passed)
    (alive : j.session.phase = .alive) : ∃ passed, j.session.Musters j.focus.due passed := by
  cases move with
  | still still =>
    rcases Session.acts_of_still (S := S) still with ⟨acts, -⟩ | rfl
    · have before := acts.phase.symm.trans alive
      obtain ⟨passed, musters⟩ := musters before
      exact ⟨passed, musters.acts before acts⟩
    · cases alive
  | begun begins =>
    have acts := (Session.acts_of_begins begins).1
    have before := acts.phase.symm.trans alive
    obtain ⟨passed, musters⟩ := musters before
    exact ⟨passed, musters.acts before acts⟩
  | taken =>
    obtain ⟨passed, musters⟩ := musters alive
    exact ⟨_, musters.taken (booked.mailed alive) S⟩
  | @worked s t step script answers limit settled works =>
    have posts := Session.Posts.work works
    have before := posts.phase.symm.trans alive
    obtain ⟨passed, musters⟩ := musters before
    exact ⟨passed, musters.posts before posts⟩
  | @ended s step _ _ limit =>
    have posts := Session.Posts.ends limit s step
    have before := posts.phase.symm.trans alive
    obtain ⟨passed, musters⟩ := musters before
    exact ⟨passed, musters.posts before posts⟩
  | @unclaimed s step _ _ limit e rest unknown =>
    have before : s.phase = .alive := alive
    obtain ⟨passed, musters⟩ := musters before
    have unfinished : e.signal.isFinished = false := by
      cases hf : e.signal.isFinished with
      | false => rfl
      | true => exact absurd unknown (musters.claimed (booked.mailed before) hf)
    have logged := musters.posts before (Session.Posts.log s (.unclaimed e.id e.signal.trigger))
    refine ⟨passed, logged.sent, ?_, logged.held, logged.keys, ?_, logged.told⟩
    swap
    · rw [before, Focus.due_onward]
      exact (List.sublist_cons_self e rest).trans musters.due
    have same : endedBy (e :: rest) = endedBy rest := by simp [endedBy, unfinished]
    rw [before, Focus.due_onward, ← same]
    exact logged.ended
  | panicked => cases alive
  | called found =>
    obtain ⟨passed, musters⟩ := musters alive
    exact ⟨passed, musters.call found⟩
  | @reacted s _ _ _ _ _ callback c =>
    have posts := Session.Posts.react S callback s c
    have before := posts.phase.symm.trans alive
    obtain ⟨passed, musters⟩ := musters before
    exact ⟨passed, musters.posts before posts⟩
  | @resumed s =>
    have before : s.phase = .alive := alive
    obtain ⟨passed, musters⟩ := musters before
    rw [before, Focus.due_onward]
    exact ⟨passed, musters⟩
  | brought => exact musters alive

theorem Occurs.musters (occurs : Occurs S steps i) (alive : i.session.phase = .alive) :
    ∃ passed, i.session.Musters i.focus.due passed := by
  induction occurs with
  | refl => exact ⟨[], rfl, rfl, fun id n => by simp [first, Session.start, Callbacks.number?,
      Callbacks.find?, Callbacks.none], List.nodup_nil, List.nil_sublist _,
      fun _ told => by cases told⟩
  | tail before next ih => exact (move_of_next next).musters (Occurs.booked before) ih alive

/-- As long as delivery goes on, it holds or will hold a callback for each dispatch whose terminal
signal has not been delivered, and for no other. -/
theorem Occurs.roster (occurs : Occurs S steps i) (alive : i.session.phase = .alive) :
    i.session.roster.Perm (unconcludedIn i.session.history) := by
  obtain ⟨passed, musters⟩ := occurs.musters alive
  exact musters.perm ((Occurs.booked occurs).mailed alive)

/-- Delivery never brings a terminal signal to nobody. -/
theorem Occurs.claimed (occurs : Occurs S steps i) : ¬ i.Occasion .orphan := by
  intro orphan
  cases orphan with
  | commanded command brings =>
    rename_i c
    cases c <;> simp [Session.mayBring] at brings
  | orphaned focus finished unknown =>
    have alive : i.session.phase = .alive := by
      rcases occurs.poised with alive | ⟨-, resting, -⟩
      · exact alive
      · rw [focus] at resting
        cases resting
    obtain ⟨passed, musters⟩ := occurs.musters alive
    rw [focus] at musters
    exact musters.claimed ((Occurs.booked occurs).mailed alive) finished unknown

/-- A start is refused by the queue only when what the worker runs on was taken away. -/
theorem Occurs.refused (occurs : Occurs S steps i) (refusal : i.Occasion .refusal) :
    i.session.history.any Happening.isTearing = true := by
  obtain ⟨⟨l, run, fits⟩, dead⟩ := Occurs.booked occurs
  cases refusal with
  | @commanded c _ command brings =>
    cases c with
    | start request input surface panicsOn reactions =>
      obtain ⟨-, held, refuses⟩ := brings.resolve_left nofun
      have going : i.session.inbox.stopping = false := by
        rw [← Bool.not_eq_true, show (i.session.inbox.stopping = true ↔ _) from fits.held]
        exact not_not_intro held
      have closed : i.session.inbox.closed = true := by simpa [going] using refuses
      have isOver : i.session.stage.isOver = true :=
        (show i.session.inbox.closed = i.session.stage.isOver from fits.closed) ▸ closed
      exact Session.Booked.torn_of_dead ⟨⟨l, run, fits⟩, dead⟩
        (Session.dead_of_isOver fits going isOver)
    | cancel handle => rcases brings with h | h <;> cases h
    | drop => cases brings
    | unreadable word fault => cases brings

end Instant

namespace Session

variable {S : Setup} {s t : Session}

section Submit

variable {u : Session} {callback : Nat} {task : Task} {inbox : Inbox Task}

theorem handles_submit :
    (u.submit callback task).handles = u.handles ++ [(task.id, task.token)] := by
  unfold submit
  cases u.inbox.submit task with
  | ok inbox => rfl
  | error e =>
    obtain ⟨-, -, -, side, -⟩ := send_posts
      { u.log (.dispatchRefused task.id task.request.kind e) with
        tokens := (u.log (.dispatchRefused task.id task.request.kind e)).tokens.cancel task.token }
      (.event ⟨task.id, .finished .cancelledBeforeStart⟩)
    exact congrArg (· ++ [(task.id, task.token)]) (congrArg WorkerSide.handles side)

theorem inbox_submit (takes : u.inbox.submit task = .ok inbox) :
    (u.submit callback task).inbox = inbox := by
  simp only [submit, takes]
  rfl

theorem history_submit (takes : u.inbox.submit task = .ok inbox) :
    (u.submit callback task).history = u.history ++ [.reached task (.submitted callback) u.clock,
      .log ⟨u.clock, none, .dispatchQueued task.id task.request.kind⟩] := by
  simp only [submit, takes]
  show (({ u with inbox := inbox }.reach task (.submitted callback)).log _).history = _
  rw [history_log, history_reach, List.append_assoc]
  rfl

end Submit

/-- A start is queued: its task waits behind all others, its callback is on its way to delivery, and
the starter has a handle. -/
structure Queues (s t : Session) (reply : Reply) (callback : Callback Command) (task : Task) :
    Prop where
  reply : reply = .started callback.number s.handles.length
  handles : t.handles = s.handles ++ [(task.id, task.token)]
  waiting : t.inbox.waiting = s.inbox.waiting ++ [task]
  history : ∃ h, h.message? = some (.attach task.id callback) ∧
    t.history = s.history ++ [h, .reached task (.submitted callback.number) s.clock,
      .log ⟨s.clock, none, .dispatchQueued task.id task.request.kind⟩]

theorem Booked.queues (booked : Booked S s) (held : s.owner = .held)
    (untorn : s.history.any Happening.isTearing = false) (room : s.starts < S.startLimit)
    {request : Request} (registered : S.registry.supports request.kind = true)
    (input : CryptoInput) {surface : Surface} (asked : surface ≠ .panics)
    (panicsOn : Option Trigger) (reactions : List (Trigger × List Command)) :
    Queues s (s.perform S (.start request input surface panicsOn reactions)).1
      (s.perform S (.start request input surface panicsOn reactions)).2
      ⟨s.starts, panicsOn, reactions⟩
      ⟨s.nextId, request, input, s.tokens.fresh, surface = .needed⟩ := by
  obtain ⟨⟨l, run, fits⟩, -⟩ := id booked
  have going : s.inbox.stopping = false := by
    rw [← Bool.not_eq_true, show (s.inbox.stopping = true ↔ _) from fits.held]
    exact not_not_intro held
  have open_ : s.inbox.closed = false := by
    rw [show s.inbox.closed = s.stage.isOver from fits.closed, ← Bool.not_eq_true]
    intro isOver
    have torn := booked.torn_of_dead (dead_of_isOver fits going isOver)
    rw [untorn] at torn
    cases torn
  obtain ⟨factory, slot⟩ := Option.isSome_iff_exists.1 registered
  have resolved : S.registry.resolve request.kind = .ok factory := by
    rw [Registry.resolve, slot]
  simp only [Session.perform, if_neg (Nat.not_le_of_lt room), if_pos held, Session.startRequest,
    resolved, if_neg asked]
  obtain ⟨h, posts, history, hside, -⟩ := send_posts { s with starts := s.starts + 1 }.allot
    (.attach s.nextId ⟨s.starts, panicsOn, reactions⟩)
  generalize hsent : Session.send _ _ = u at history hside ⊢
  have inbox : u.inbox = s.inbox := congrArg WorkerSide.inbox hside
  have handles : u.handles = s.handles := congrArg WorkerSide.handles hside
  have clock : u.clock = s.clock := by
    rw [← hsent]
    unfold Session.send
    split <;> rfl
  have takes : ∀ task, u.inbox.submit task =
      .ok { s.inbox with waiting := s.inbox.waiting ++ [task] } := fun task => by
    rw [inbox]
    exact Inbox.submit_eq_ok.2 ⟨going, open_, rfl⟩
  refine ⟨rfl, ?_, ?_, h, posts, ?_⟩
  · rw [handles_submit, handles]
  · rw [inbox_submit (takes _)]
  · rw [history_submit (takes _), history, clock, List.append_assoc]
    rfl

end Session

/-- Worker and delivery survive what a script makes them run, at every instant. -/
structure Endures (S : Setup) (steps : List CallerStep) : Prop where
  /-- The worker stands as long as there is something for it to run on. -/
  standing : ∀ i, Instant.Occurs S steps i → i.session.history.any Happening.isTearing = false →
    i.session.stage ≠ .dead
  unreported : ∀ i, Instant.Occurs S steps i →
    ∀ record, .log record ∈ i.session.history → record.event ≠ .workerDied
  admitted : ∀ i, Instant.Occurs S steps i → i.session.history.any Happening.isTearing = false →
    ∀ record, .log record ∈ i.session.history →
      ∀ id kind error, record.event ≠ .dispatchRefused id kind error
  /-- A start is queued, by whomever it is made. -/
  queued : ∀ i, Instant.Occurs S steps i → i.session.history.any Happening.isTearing = false →
    i.session.owner = .held → i.session.starts < S.startLimit →
    ∀ request input surface panicsOn reactions,
      i.command? = some (.start request input surface panicsOn reactions) →
      S.registry.supports request.kind = true → surface ≠ .panics →
      ∃ done task, i.next? S = some (i.carriedOut done) ∧
        task.request = request ∧ task.input = input ∧
        Session.Queues i.session done.1 done.2 ⟨i.session.starts, panicsOn, reactions⟩ task
  claimed : ∀ i, Instant.Occurs S steps i → ∀ record, .log record ∈ i.session.history →
    ∀ id, record.event ≠ .unclaimed id .finished
  roster : ∀ i, Instant.Occurs S steps i → i.session.history.any Happening.isTearing = false →
    i.session.phase ≠ .panicked →
    i.session.roster.Perm (unconcludedIn i.session.history)

namespace Session

/-- In every session, whatever is run in it, worker and delivery survive. -/
theorem worker_survives (S : Setup) (steps : List CallerStep) : Endures S steps where
  standing i occurs untorn dead := by
    have torn := (Instant.Occurs.booked occurs).torn_of_dead dead
    rw [untorn] at torn
    cases torn
  unreported i occurs record logged :=
    (orderly_runScript S steps).reports.worker record ((Instant.Occurs.past occurs).subset logged)
  admitted i occurs untorn record logged id kind error refused := by
    have rare : Happening.rarity? (.log record) = some .refusal := by
      simp [Happening.rarity?, refused]
    obtain ⟨j, k, early, next, leads, refusal, -⟩ := Instant.Occurs.occasion occurs rare logged
    have past := (Instant.move_of_next next).past.trans (Instant.past_leads leads)
    have torn := Instant.torn_of_past past (Instant.Occurs.refused early refusal)
    rw [untorn] at torn
    cases torn
  queued i occurs untorn held room request input surface panicsOn reactions command registered
      asked :=
    ⟨_, _, Instant.next_of_command command, rfl, rfl, (Instant.Occurs.booked occurs).queues held
      untorn room registered input asked panicsOn reactions⟩
  claimed i occurs record logged id unclaimed := by
    have rare : Happening.rarity? (.log record) = some .orphan := by
      simp [Happening.rarity?, unclaimed]
    obtain ⟨j, -, early, -, -, orphan, -⟩ := Instant.Occurs.occasion occurs rare logged
    exact Instant.Occurs.claimed early orphan
  roster i occurs untorn unharmed := by
    refine Instant.Occurs.roster occurs ?_
    rcases Instant.Occurs.poised occurs with alive | ⟨quiet, -, torn⟩
    · exact alive
    · cases hp : i.session.phase with
      | alive => rfl
      | panicked => exact absurd hp unharmed
      | vanished =>
        rw [torn hp] at untorn
        cases untorn

/-- The first start of a session is queued. -/
theorem worker_survives_of_first : ∃ done task,
    (Instant.first [.begin .backup .unneeded]).next? (.sample []) =
      some ((Instant.first [.begin .backup .unneeded]).carriedOut done) ∧
    Queues start done.1 done.2 ⟨0, none, []⟩ task := by
  obtain ⟨done, task, next, -, -, queues⟩ :=
    (worker_survives (.sample []) [.begin .backup .unneeded]).queued (Instant.first _) .refl rfl rfl
      (by decide) ⟨.backup, ⟨[]⟩⟩ .default .unneeded none [] rfl rfl (by decide)
  exact ⟨done, task, next, queues⟩

/-- A callback that panics when it is asked about a surface stops its start short of the queue, and
a start after all that the worker runs on was taken away is refused by it. -/
theorem not_always_queued :
    (¬ ∀ (S : Setup) (steps : List CallerStep) (i : Instant) (request : Request)
      (input : CryptoInput) (surface : Surface) (panicsOn : Option Trigger)
      (reactions : List (Trigger × List Command)), Instant.Occurs S steps i →
      i.session.owner = .held → i.session.starts < S.startLimit →
      i.command? = some (.start request input surface panicsOn reactions) →
      S.registry.supports request.kind = true →
      ∃ slip, acceptedIn (i.session.perform S
        (.start request input surface panicsOn reactions)).1.history =
          acceptedIn i.session.history ++ [slip]) ∧
    ¬ ∀ (S : Setup) (steps : List CallerStep) (record : LogRecord),
      .log record ∈ (start.runScript S steps).history →
      ∀ id kind error, record.event ≠ .dispatchRefused id kind error := by
  refine ⟨fun always => ?_, fun always => ?_⟩
  · obtain ⟨slip, queued⟩ := always (.sample []) [.begin .backup .panics]
      (Instant.first [.begin .backup .panics]) ⟨.backup, ⟨[]⟩⟩ .default .panics none [] .refl rfl
      (by decide) rfl rfl
    cases queued
  · refine always (.sample []) [.teardown, .begin .backup .unneeded]
      ⟨0, none, .dispatchRefused 1 .backup .closed⟩ ?_ 1 .backup .closed rfl
    exact List.mem_of_getElem? (i := 2) rfl

end Session
end SerialDispatch
