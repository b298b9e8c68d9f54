import SerialDispatch.Proofs.Dispatcher.Mailbox
import SerialDispatch.Proofs.Dispatcher.Moments
import SerialDispatch.Proofs.Dispatcher.Working

/-!
# What the caller is answered

A start that gives a handle has been accepted, and the handle is its place among all that were; a
shutdown that returns finds that the worker has come to its end and that, unless a callback has
panicked, all that was sent is delivered.
-/
namespace SerialDispatch
namespace Session

theorem accepted_submit {s : Session} {callback : Nat} {task : Task} {slip : Slip}
    (accepted : slip ∈ acceptedIn (s.submit callback task).history) :
    slip ∈ acceptedIn s.history ∨ slip = ⟨task, callback⟩ := by
  cases takes : s.inbox.submit task with
  | ok inbox =>
    rw [acceptedIn_submit takes] at accepted
    rcases List.mem_append.1 accepted with old | new
    · exact .inl old
    · exact .inr (List.mem_singleton.1 new)
  | error e =>
    rw [acceptedIn_submit_error takes] at accepted
    exact .inl accepted

/-- A start either accepts nothing and gives no handle, or it submits a task with what it was
given. -/
theorem start_cases (S : Setup) (s : Session) (request : Request) (input : CryptoInput)
    (surface : Surface) (panicsOn : Option Trigger) (reactions : List (Trigger × List Command)) :
    (∃ t reply, s.perform S (.start request input surface panicsOn reactions) = (t, reply) ∧
      t.history = s.history ∧ ∀ callback handle, reply ≠ .started callback handle) ∨
    (s.owner = .held ∧ ∃ (u : Session) (task : Task),
      s.perform S (.start request input surface panicsOn reactions) =
        (u.submit s.starts task, .started s.starts s.handles.length) ∧
      u.inbox = s.inbox ∧ acceptedIn u.history = acceptedIn s.history ∧
      task.request = request ∧ task.input = input) := by
  by_cases hlimit : S.startLimit ≤ s.starts
  · refine .inl ⟨s, .refused .tooManyStarts, ?_, rfl, by simp⟩
    simp only [perform, if_pos hlimit]
  by_cases held : s.owner = .held
  swap
  · refine .inl ⟨{ s with starts := s.starts + 1 }, .refused .gone, ?_, rfl, by simp⟩
    simp only [perform, if_neg hlimit, if_neg held]
  simp only [perform, if_neg hlimit, if_pos held, startRequest]
  cases hresolve : S.registry.resolve request.kind with
  | error refusal => exact .inl ⟨_, _, rfl, rfl, by simp⟩
  | ok factory =>
    by_cases hsurface : surface = .panics
    · simp only [if_pos hsurface]
      exact .inl ⟨_, _, rfl, rfl, by simp⟩
    simp only [if_neg hsurface]
    obtain ⟨-, -, -, hside, -⟩ := send_posts { s with starts := s.starts + 1 }.allot
      (.attach s.nextId ⟨s.starts, panicsOn, reactions⟩)
    exact .inr ⟨held, _, _, rfl, congrArg WorkerSide.inbox hside, acceptedIn_send _ _, rfl, rfl⟩

/-- Whoever starts it, a dispatch is accepted with what was passed to its start. -/
theorem accepted_start {S : Setup} {s : Session} {request : Request} {input : CryptoInput}
    {surface : Surface} {panicsOn : Option Trigger} {reactions : List (Trigger × List Command)}
    {slip : Slip}
    (accepted : slip ∈ acceptedIn
      (s.perform S (.start request input surface panicsOn reactions)).1.history) :
    slip ∈ acceptedIn s.history ∨
      slip.callback = s.starts ∧ slip.task.request = request ∧ slip.task.input = input := by
  rcases start_cases S s request input surface panicsOn reactions with
    ⟨t, reply, h, hhistory, -⟩ | ⟨-, u, task, h, -, hsame, hrequest, hinput⟩
  · rw [h, hhistory] at accepted
    exact .inl accepted
  · rw [h] at accepted
    rcases accepted_submit accepted with old | new
    · rw [hsame] at old
      exact .inl old
    · rw [new]
      exact .inr ⟨rfl, hrequest, hinput⟩

/-- A start that gives a handle is accepted, with what it was given, as long as nothing has
vanished. -/
theorem Booked.started {S : Setup} {s : Session} (booked : Booked S s) (there : s.stage ≠ .dead)
    {request : Request} {input : CryptoInput} {surface : Surface} {panicsOn : Option Trigger}
    {reactions : List (Trigger × List Command)} {callback handle : Nat}
    (started : (s.perform S (.start request input surface panicsOn reactions)).2 =
      .started callback handle) :
    ∃ slip : Slip,
      acceptedIn (s.perform S (.start request input surface panicsOn reactions)).1.history =
        acceptedIn s.history ++ [slip] ∧ handle = s.handles.length ∧ slip.callback = callback ∧
      slip.task.request = request ∧ slip.task.input = input := by
  rcases start_cases S s request input surface panicsOn reactions with
    ⟨t, reply, h, -, hreply⟩ | ⟨held, u, task, h, hinbox, hsame, hrequest, hinput⟩
  · rw [h] at started
    exact absurd started (hreply callback handle)
  · rw [h] at started ⊢
    cases started
    obtain ⟨⟨l, run, fits⟩, -⟩ := booked
    have going : s.inbox.stopping = false := by
      cases hs : s.inbox.stopping with
      | false => rfl
      | true => exact absurd held (fits.held.1 hs)
    have closed : s.inbox.closed = false := by
      cases isOver : s.stage.isOver with
      | false => exact fits.closed.trans isOver
      | true => exact absurd (dead_of_isOver fits going isOver) there
    have takes : u.inbox.submit task =
        .ok { s.inbox with waiting := s.inbox.waiting ++ [task] } := by
      rw [hinbox]
      exact Inbox.submit_eq_ok.2 ⟨going, closed, rfl⟩
    refine ⟨⟨task, s.starts⟩, ?_, rfl, rfl, hrequest, hinput⟩
    rw [acceptedIn_submit takes, hsame]

theorem Booked.torn_of_dead {S : Setup} {s : Session} (booked : Booked S s)
    (gone : s.stage = .dead) : s.history.any Happening.isTearing = true := by
  obtain ⟨⟨l, run, fits⟩, -⟩ := booked
  exact run.torn.symm.trans (fits.torn.2 gone)

/-- A handle is the number of the handles before it. -/
theorem handle_of_started {S : Setup} {s : Session} {request : Request} {input : CryptoInput}
    {surface : Surface} {panicsOn : Option Trigger} {reactions : List (Trigger × List Command)}
    {callback handle : Nat}
    (started : (s.perform S (.start request input surface panicsOn reactions)).2 =
      .started callback handle) : handle = s.handles.length := by
  rcases start_cases S s request input surface panicsOn reactions with
    ⟨t, reply, h, -, hreply⟩ | ⟨-, u, task, h, -⟩
  · rw [h] at started
    exact absurd started (hreply callback handle)
  · rw [h] at started
    cases started
    rfl

/-- Where nothing has vanished, the handle that a start gives is the place of its dispatch among
those that were accepted. -/
theorem Booked.accepted_of_started {S : Setup} {s : Session} {history : List Happening}
    (booked : Booked S s) (there : s.stage ≠ .dead) {request : Request} {input : CryptoInput}
    {surface : Surface} {panicsOn : Option Trigger} {reactions : List (Trigger × List Command)}
    {callback handle : Nat}
    (past : (s.perform S (.start request input surface panicsOn reactions)).1.history <+: history)
    (started : (s.perform S (.start request input surface panicsOn reactions)).2 =
      .started callback handle) :
    ∃ slip : Slip, (acceptedIn history)[handle]? = some slip ∧ slip.callback = callback ∧
      slip.task.request = request ∧ slip.task.input = input := by
  have hlength : s.handles.length = (acceptedIn s.history).length := by
    obtain ⟨⟨l, run, fits⟩, -⟩ := booked
    have htorn : l.torn = false := by
      cases ht : l.torn with
      | false => rfl
      | true => exact absurd (fits.torn.1 ht) there
    obtain ⟨refused, hhandles, hnone⟩ := fits.known.handed
    rw [hnone htorn, List.append_nil, run.accepted_of_empty] at hhandles
    rw [show s.handles = _ from hhandles, List.length_map]
  obtain ⟨slip, haccepted, rfl, hcallback, hrequest, hinput⟩ := booked.started there started
  refine ⟨slip, ?_, hcallback, hrequest, hinput⟩
  obtain ⟨rest, hrest⟩ := past
  rw [← hrest, acceptedIn_append, haccepted, hlength, List.append_assoc,
    List.getElem?_append_right (Nat.le_refl _), Nat.sub_self]
  rfl

/-- The handle of a start that comes after everything has vanished is no place among the dispatches
that were accepted. -/
theorem Booked.not_accepted_of_started {S : Setup} {s t : Session} (booked : Booked S s)
    (later : Booked S t) (gone : s.stage = .dead) (past : s.history <+: t.history)
    {request : Request} {input : CryptoInput} {surface : Surface} {panicsOn : Option Trigger}
    {reactions : List (Trigger × List Command)} {callback handle : Nat}
    (started : (s.perform S (.start request input surface panicsOn reactions)).2 =
      .started callback handle) : (acceptedIn t.history)[handle]? = none := by
  have torn := booked.torn_of_dead gone
  obtain ⟨⟨l, run, fits⟩, -⟩ := booked
  obtain ⟨⟨m, whole, -⟩, -⟩ := later
  obtain ⟨rest, hrest⟩ := past
  rw [← hrest] at whole ⊢
  obtain ⟨refused, hhandles, -⟩ := fits.known.handed
  rw [acceptedIn_append, whole.accepted_of_torn torn, List.append_nil, handle_of_started started,
    show s.handles = _ from hhandles, List.getElem?_eq_none_iff, run.accepted_of_empty]
  simp

theorem cancelledIn_cancel (s : Session) (handle : Nat) : cancelledIn (s.cancel handle).1.history =
    cancelledIn s.history ++ (s.handles[handle]?.map Prod.fst).toList := by
  unfold Session.cancel
  cases s.handles[handle]? with
  | none => exact (List.append_nil _).symm
  | some pair =>
    obtain ⟨id, token⟩ := pair
    dsimp only
    split
    · rw [history_record, cancelledIn_append]
      rfl
    · rw [history_log, history_record, cancelledIn_append, cancelledIn_append]
      exact List.append_nil _

/-- A cancellation through a handle is one of the dispatch that the handle was given for. -/
theorem Booked.cancelled {S : Setup} {s : Session} (booked : Booked S s) {handle : Nat}
    {slip : Slip} (hslip : (acceptedIn s.history)[handle]? = some slip) :
    cancelledIn (s.perform S (.cancel handle)).1.history = cancelledIn s.history ++ [slip.id] := by
  obtain ⟨⟨l, run, fits⟩, -⟩ := booked
  obtain ⟨refused, hhandles, -⟩ := fits.known.handed
  have hhandle : s.handles[handle]? = some slip.handle := by
    have hlt := (List.getElem?_eq_some_iff.1 hslip).1
    rw [show s.handles = _ from hhandles, run.accepted_of_empty, List.getElem?_append_left
      (by rwa [List.length_map]), List.getElem?_map, hslip]
    rfl
  rw [Session.perform, cancelledIn_cancel, hhandle]
  rfl

/-- A shutdown that returns finds worker and delivery ended. -/
theorem shutdown_of_stopped {S : Setup} {s : Session}
    (returned : (s.step S .shutdown).2 = .stopped) : s.alive = true ∧
      ∃ ran : Session, (s.step S .shutdown).1 = ran.logShutdown ∧ ran.alive = s.alive ∧
        ran.isComplete = true := by
  simp only [step] at returned ⊢
  cases halive : s.alive with
  | false => simp [halive] at returned
  | true =>
    by_cases held : s.owner = .held
    · simp only [halive, Bool.not_true, Bool.false_eq_true, if_false, held, if_true] at returned ⊢
      unfold shutdown at returned ⊢
      dsimp only at returned ⊢
      split at returned
      · rename_i complete
        rw [if_pos complete]
        refine ⟨trivial, _, rfl, ?_, complete⟩
        exact (follows_run S _ _).alive.trans halive
      · cases returned
    · simp [halive, held] at returned

theorem logShutdown_same (s : Session) :
    s.logShutdown.stage = s.stage ∧ s.logShutdown.mailbox = s.mailbox := by
  unfold logShutdown
  dsimp only
  split <;> split <;> exact ⟨rfl, rfl⟩

/-- When a shutdown has returned the worker has come to its end. -/
theorem ended_of_stopped {S : Setup} {s : Session} (booked : Booked S s)
    (returned : (s.step S .shutdown).2 = .stopped) : (s.step S .shutdown).1.stage = .ended := by
  have dead := (booked.step .shutdown).2
  obtain ⟨halive, ran, hran, hkept, complete⟩ := shutdown_of_stopped returned
  have hstage := (logShutdown_same ran).1
  rw [hran] at dead ⊢
  cases hs : ran.logShutdown.stage with
  | ended => rfl
  | dead =>
    have hgone := (dead hs).2
    rw [(Posts.logShutdown ran).alive, hkept, halive] at hgone
    cases hgone
  | _ => simp [isComplete, ← hstage, hs, Stage.isOver] at complete

/-- When it has returned and no callback has panicked, all that was sent is delivered. -/
theorem delivered_of_stopped {S : Setup} {s : Session} (delivers : Delivers S s)
    (returned : (s.step S .shutdown).2 = .stopped)
    (calm : (s.step S .shutdown).1.phase ≠ .panicked) :
    (s.step S .shutdown).1.phase = .alive ∧ (s.step S .shutdown).1.mailbox = [] := by
  have vanished := (delivers.step .shutdown).vanished
  obtain ⟨halive, ran, hran, hkept, complete⟩ := shutdown_of_stopped returned
  have posts := Posts.logShutdown ran
  rw [hran] at calm vanished ⊢
  have hphase : ran.logShutdown.phase = .alive := by
    cases hp : ran.logShutdown.phase with
    | alive => rfl
    | panicked => exact absurd hp calm
    | vanished =>
      have hgone := vanished hp
      rw [posts.alive, hkept, halive] at hgone
      cases hgone
  have hran : ran.phase = .alive := posts.phase.symm.trans hphase
  simp only [isComplete, hran, ne_eq, not_true_eq_false, decide_false, Bool.false_or,
    Bool.and_eq_true, List.isEmpty_iff] at complete
  exact ⟨hphase, (logShutdown_same ran).2.trans complete.2.1⟩

/-- A shutdown signals the worker to stop before anything else happens. -/
theorem shutdown_signals (S : Setup) {s : Session} (there : s.alive = true)
    (held : s.owner = .held) :
    ∃ after, (s.step S .shutdown).1.history = s.history ++ .stopping :: after := by
  have signalled : s.history ++ [.stopping] <+: (s.step S .shutdown).1.history := by
    have stop : (s.signalStop .gone).history = s.history ++ [.stopping] := history_record _ _
    rw [← stop]
    have ran := (follows_run S (some (s.clock + patience))
      { s.signalStop .gone with turn := .first }).past
    simp only [step, there, held, Bool.not_true, Bool.false_eq_true, if_false, if_true]
    unfold shutdown
    dsimp only
    split
    · exact ran.trans (Posts.logShutdown _).past
    · exact ran
  obtain ⟨after, hafter⟩ := signalled
  exact ⟨after, by rw [← hafter]; simp⟩

end Session
end SerialDispatch
