import SerialDispatch.Proofs.Dispatcher.Akin
import SerialDispatch.Proofs.Dispatcher.Evaluation
import SerialDispatch.Proofs.Dispatcher.Occasions
import SerialDispatch.Proofs.Dispatcher.Timetable

/-!
# Cancelling too late

A token can be reached from a handle, from a task that waits, from the worker and from an operation.
Once the operation of a dispatch was constructed, or the dispatch is over, only the operation can
still look at the token, and only if its kind can be cancelled. Unless it does, a cancellation makes
no difference but in the flag of the token and in what is logged of requests to cancel the dispatch.
Main statement: `Session.late_cancels_unheard`.
-/
namespace SerialDispatch

/-- It is too late to keep the dispatch from being begun. -/
inductive Late (history : List Happening) (id : DispatchId) : Prop
  | constructed {n : Nat} (constructed : .constructed n ∈ milestonesIn history id)
  | discarded (discarded : .discarded ∈ milestonesIn history id)
  | finished {outcome : Outcome} (finished : .finished outcome ∈ signalsIn history id)

theorem Late.extend {history later : List Happening} {id : DispatchId} (late : Late history id)
    (past : history <+: later) : Late later id := by
  obtain ⟨more, rfl⟩ := past
  cases late with
  | constructed made =>
    exact .constructed (by rw [milestonesIn_append]; exact List.mem_append_left _ made)
  | discarded dropped =>
    exact .discarded (by rw [milestonesIn_append]; exact List.mem_append_left _ dropped)
  | finished ended =>
    exact .finished (by rw [signalsIn_append]; exact List.mem_append_left _ ended)

/-- Whether the happening is the log entry of a request to cancel the dispatch. -/
def Happening.requests (id : DispatchId) : Happening → Bool
  | .log record => record.event = .cancellationRequested id
  | _ => false

theorem Happening.log_of_requests {id : DispatchId} {h : Happening}
    (requests : h.requests id = true) :
    ∃ record, h = .log record ∧ record.event = .cancellationRequested id := by
  cases h with
  | log record => exact ⟨record, rfl, by simpa [Happening.requests] using requests⟩
  | _ => cases requests

/-- What has happened, but for the log entries of requests to cancel the dispatch. -/
def unrequested (id : DispatchId) (history : List Happening) : List Happening :=
  history.filter fun h => !h.requests id

/-- What looks neither at these requests nor at the cancellation reads the same without them. -/
theorem filterMap_of_unrequested {β : Type} {f : Happening → Option β} {id : DispatchId}
    {before rest others : List Happening} (blind : ∀ h, h.requests id = true → f h = none)
    (uncancelled : f (.cancelled id) = none)
    (same : unrequested id rest = unrequested id others) :
    (before ++ others).filterMap f = (before ++ .cancelled id :: rest).filterMap f := by
  have unread : ∀ history : List Happening,
      (unrequested id history).filterMap f = history.filterMap f := by
    intro history
    rw [unrequested, List.filterMap_filter]
    refine List.filterMap_congr fun h _ => ?_
    cases requests : h.requests id with
    | false => rfl
    | true => exact (blind h requests).symm
  rw [List.filterMap_append, List.filterMap_append, List.filterMap_cons_none uncancelled,
    ← unread rest, ← unread others, same]

/-- How sessions compare of which only one has heard of a cancellation: `base` is what had happened
before it, the latest first. -/
def lateKinship (id : DispatchId) (token : Token) (base : List Happening) : Kinship where
  veiled := some token
  loose other := other = id
  kin g h a b := g = h ∧ ∃ later other, a = later ++ .cancelled id :: base ∧ b = other ++ base ∧
    unrequested id later = unrequested id other
  cons x kin := by
    obtain ⟨stage, later, other, rfl, rfl, same⟩ := kin
    refine ⟨stage, x :: later, x :: other, rfl, rfl, ?_⟩
    simp only [unrequested, List.filter_cons] at same ⊢
    rw [same]
  requested := by
    rintro g h a b id time rfl ⟨stage, later, other, rfl, rfl, same⟩
    have request : Happening.requests id (.log ⟨time, none, .cancellationRequested id⟩) = true := by
      simp [Happening.requests]
    refine ⟨⟨stage, _ :: later, other, rfl, rfl, ?_⟩, ⟨stage, later, _ :: other, rfl, rfl, ?_⟩⟩
    · simp only [unrequested, List.filter_cons] at same ⊢
      simp only [request, Bool.not_true, Bool.false_eq_true, if_false, same]
    · simp only [unrequested, List.filter_cons] at same ⊢
      simp only [request, Bool.not_true, Bool.false_eq_true, if_false, same]

/-- What a session comes to that has not heard of the cancellation of a dispatch: all is the same,
but for the flag of the token and for what is logged of requests to cancel the dispatch. What had
happened `before` the cancellation is the same anyway. -/
structure SameButRequests (id : DispatchId) (token : Token) (before : List Happening)
    (actual other : Session × List (Reply × Nat)) : Prop where
  answers : other.2 = actual.2
  session : other.1 = { actual.1 with tokens := other.1.tokens, trail := other.1.trail }
  tokens : ∀ t, t ≠ token → other.1.tokens.isCancelled t = actual.1.tokens.isCancelled t
  history : ∃ rest others, actual.1.history = before ++ .cancelled id :: rest ∧
    other.1.history = before ++ others ∧ unrequested id rest = unrequested id others
  told : toldIn other.1.history = toldIn actual.1.history
  messages : messagesIn other.1.history = messagesIn actual.1.history
  logs : (logsIn other.1.history).filter (fun r => r.event ≠ .cancellationRequested id) =
    (logsIn actual.1.history).filter fun r => r.event ≠ .cancellationRequested id

namespace Session

variable {S : Setup} {s t : Session} {id : DispatchId} {token : Token} {base : List Happening}

/-- A dispatch whose token is still to be looked at is none for which that is too late. -/
theorem Fits.token_ne {l : Ledger} (fits : Fits S s.workerSide l)
    (run : Ledger.Run S .empty s.history l) (late : Late s.history id)
    (held : (id, token) ∈ s.handles) {slip : Slip} {st : Stand} (hroll : (slip, st) ∈ l.roll)
    (early : st = .waiting ∨ st = .at .taken) : token ≠ slip.task.token := by
  intro same
  have hslip : slip ∈ l.accepted := List.mem_map_of_mem hroll
  have known : Known s.handles s.nextId s.tokens l := fits.known
  obtain rfl : id = slip.id := (known.token_eq held (known.mem_handles hslip)).1 same
  have milestones : milestonesIn s.history slip.id = st.milestones slip := run.milestones _ hroll
  have signals : st.Signals slip (signalsIn s.history slip.id) := run.signals _ hroll
  cases late with
  | constructed made =>
    rw [milestones] at made
    rcases early with rfl | rfl <;> simp [Stand.milestones, Stand.place?, Place.milestones] at made
  | discarded dropped =>
    rw [milestones] at dropped
    rcases early with rfl | rfl <;>
      simp [Stand.milestones, Stand.place?, Place.milestones] at dropped
  | finished ended =>
    rcases early with rfl | rfl
    · rw [show signalsIn s.history slip.id = [] from signals] at ended
      cases ended
    · rw [show signalsIn s.history slip.id = [] from signals] at ended
      cases ended

/-- Who holds the token stands for the dispatch. -/
theorem Booked.fair_late (booked : Booked S s) (held : (id, token) ∈ s.handles) :
    (lateKinship id token base).Fair s := by
  obtain ⟨⟨l, run, fits⟩, -⟩ := booked
  intro handle hh veiled
  have same : token = handle.2 := Option.some.inj veiled
  exact ((fits.known.token_eq hh held).1 same.symm)

/-- The worker does not look at the token any more, unless the operation does. -/
theorem Booked.blind_late (booked : Booked S s) (late : Late s.history id)
    (held : (id, token) ∈ s.handles)
    (unlooked : ∀ slip n step rest wake, slip ∈ acceptedIn s.history → slip.id = id →
      s.stage = .running slip.task n (step :: rest) wake → step.looks = true →
        slip.kind.isCancellable = false) :
    (lateKinship id token base).Blind s := by
  obtain ⟨⟨l, run, fits⟩, -⟩ := booked
  have worker := fits.worker
  have apart : ∀ {slip : Slip} {st : Stand}, (slip, st) ∈ l.roll → st = .waiting ∨ st = .at .taken →
      (lateKinship id token base).veiled ≠ some slip.task.token := fun hroll early veiled =>
    Fits.token_ne fits run late held hroll early (Option.some.inj veiled)
  unfold Kinship.Blind
  split
  · rename_i hs
    intro task waits
    have queue : l.waiting.map Slip.task = s.inbox.waiting := fits.queue (by
      rw [show s.workerSide.stage = _ from hs]
      rfl)
    rw [← queue] at waits
    obtain ⟨slip, hslip, rfl⟩ := List.mem_map.1 waits
    have hroll : (slip, .waiting) ∈ l.roll := by simp [Ledger.roll, hslip]
    exact apart hroll (.inl rfl)
  · rename_i task wake hs
    rw [show s.workerSide.stage = _ from hs] at worker
    obtain ⟨slip, rfl, desk⟩ := worker
    have hroll : (slip, .at .taken) ∈ l.roll := by simp [Ledger.roll, desk]
    exact apart hroll (.inr rfl)
  · rename_i task n step rest wake hs
    intro looks cancellable veiled
    rw [show s.workerSide.stage = _ from hs] at worker
    obtain ⟨slip, x, rfl, desk, -⟩ := worker
    have hslip : slip ∈ l.accepted := by simp [Ledger.accepted, Ledger.roll, desk]
    have same : token = slip.task.token := Option.some.inj veiled
    have known : Known s.handles s.nextId s.tokens l := fits.known
    have hid : id = slip.id := (known.token_eq held (known.mem_handles hslip)).1 same
    rw [run.accepted_of_empty] at hslip
    have not := unlooked slip n step rest wake hslip hid.symm hs looks
    rw [show slip.task.request.kind = slip.kind from rfl, not] at cancellable
    cases cancellable
  · trivial

/-- Whoever looks has looked. -/
theorem looked_bodyStep (s : Session) {step : BodyStep} (looks : step.looks = true) (task : Task)
    (n : Nat) (rest : List BodyStep) : ∃ value more, (s.bodyStep S task n rest step).history =
      s.history ++ .reached task (.looked value) s.clock :: more := by
  have seen : ∀ more, (s.look task).history ++ more =
      s.history ++ .reached task (.looked (s.seesCancelled task)) s.clock :: more := fun more => by
    rw [look, history_reach, List.append_assoc]
    rfl
  cases step with
  | poll => exact ⟨_, _, (history_record _ _).trans (seen _)⟩
  | stopIfCancelled steps =>
    simp only [Session.bodyStep]
    split
    · exact ⟨_, _, (history_reach _ _ _).trans (seen _)⟩
    · exact ⟨_, [], (List.append_nil _).symm.trans (seen [])⟩
  | _ => cases looks

/-- The session that hears of the cancellation and the one that does not. -/
theorem kin_cancel {handle : Nat} (held : s.handles[handle]? = some (id, token)) :
    Kin (lateKinship id token s.trail) (s.cancel handle).1 s ∧ (s.cancel handle).2 = .ok := by
  unfold Session.cancel
  rw [held]
  dsimp only
  split
  · exact ⟨.mk (.refl _) ⟨rfl, [], [], rfl, rfl, rfl⟩, rfl⟩
  · refine ⟨.mk (TokenPool.Agree.refl s.tokens).cancel_veiled.symm
      ⟨rfl, [.log ⟨s.clock, none, .cancellationRequested id⟩], [], rfl, rfl, ?_⟩, rfl⟩
    simp [unrequested, Happening.requests]

end Session

namespace Instant

variable {S : Setup} {steps : List CallerStep} {i j : Instant} {id : DispatchId} {token : Token}
variable {base : List Happening}

/-- A dispatch is about to be cancelled through its handle. -/
structure Cancels (i : Instant) (id : DispatchId) (token : Token) : Prop where
  commanded : ∃ handle, i.command? = some (.cancel handle) ∧
    i.session.handles[handle]? = some (id, token)

theorem cancelledIn_carriedOut {c : Command} (command : i.command? = some c)
    (done : Session × Reply) :
    cancelledIn (i.carriedOut done).session.history = cancelledIn done.1.history := by
  have silent : ∀ {h : Happening} {u : Session}, h.cancelled? = none →
      cancelledIn (u.record h).history = cancelledIn u.history := by
    intro h u silent
    rw [Session.history_record, cancelledIn_append, cancelledIn_singleton, silent]
    exact List.append_nil _
  rcases carriedOut_cases command with same | ⟨task, n, rest, same⟩ | ⟨callback, focus, same⟩
  · rw [same]
    rfl
  · rw [same]
    exact silent rfl
  · rw [same]
    exact silent rfl

/-- Where a command is carried out with results that are kin, the next instants are akin. -/
theorem akin_carriedOut {u v : Session} {c : Command} (command : i.command? = some c)
    (kin : Session.Kin (lateKinship id token base) u v) (reply : Reply) :
    Akin (lateKinship id token base) (i.carriedOut (u, reply)) (i.carriedOut (v, reply)) := by
  rcases carriedOut_cases command with same | ⟨task, n, rest, same⟩ | ⟨callback, focus, same⟩
  · rw [same, same]
    exact ⟨kin, rfl, rfl, by simp only [answered, kin.clock]⟩
  · have running : ∀ {u v : Session}, Session.Kin (lateKinship id token base) u v →
        Session.Kin (lateKinship id token base) { u with stage := .running task n rest u.clock }
          { v with stage := .running task n rest v.clock } := by
      rintro u v ⟨agree, -, trails⟩
      exact .mk agree ⟨rfl, trails⟩
    rw [same, same]
    exact ⟨running (kin.note _), rfl, rfl, rfl⟩
  · rw [same, same]
    exact ⟨kin.record _, rfl, rfl, rfl⟩

/-- What an operation is about to look at is seen in the end. -/
theorem Occurs.looks (occurs : Occurs S steps i) {limit : Nat} {caller : CallerStep}
    (focus : i.focus = .work limit caller)
    (settled : (i.session.givesWay && !i.session.mailbox.isEmpty) = false)
    (woken : i.session.stage.wake ≤ i.session.clock) {task : Task} {n wake : Nat} {step : BodyStep}
    {rest : List BodyStep} (hs : i.session.stage = .running task n (step :: rest) wake)
    (looks : step.looks = true) : ∃ value more,
      (Session.start.runScript S steps).history =
        i.session.history ++ .reached task (.looked value) i.session.clock :: more := by
  have works : i.session.work? S (some limit) = some (i.session.bodyStep S task n rest step) := by
    rw [Session.work?, if_neg (Nat.not_lt_of_le woken)]
    simp only [Session.advance?, hs]
  have next : i.next? S = some { i with session := i.session.bodyStep S task n rest step } := by
    simp only [next?, focus, settled, works, Bool.false_eq_true, if_false]
  obtain ⟨value, more, looked⟩ := Session.looked_bodyStep (S := S) i.session looks task n rest
  obtain ⟨later, hlater⟩ := Occurs.past (Relation.ReflTransGen.tail occurs next)
  refine ⟨value, more ++ later, ?_⟩
  rw [← hlater, looked]
  simp

/-- The operation of the dispatch does not look at the token any more. -/
def Unheard (S : Setup) (steps : List CallerStep) (i : Instant) (id : DispatchId) : Prop :=
  (∀ slip ∈ acceptedIn (Session.start.runScript S steps).history, slip.id = id →
    slip.kind.isCancellable = false) ∨
  ∀ more, (Session.start.runScript S steps).history = i.session.history ++ more →
    looksIn more id = []

/-- From the cancellation on, what comes next does not depend on it. -/
theorem Unheard.next {k l : Instant} (unheard : Unheard S steps i id) (occurs : Occurs S steps i)
    (late : Late i.session.history id) (held : (id, token) ∈ i.session.handles)
    (leads : Leads S i k) (akin : Akin (lateKinship id token base) k l) :
    Option.Rel (Akin (lateKinship id token base)) (k.next? S) (l.next? S) := by
  have reached : Occurs S steps k := Relation.ReflTransGen.trans occurs leads
  have booked := Occurs.booked reached
  have past := past_leads leads
  have holds : (id, token) ∈ k.session.handles := (handles_leads leads).subset held
  have stages := akin.kin.related.1
  have fair : (lateKinship id token base).Fair k.session := booked.fair_late holds
  refine akin.next (fun _ akin => akin) fair (stages ▸ .refl _) ?_ ?_
  · intro limit step focus settled
    have free : ((lateKinship id token base).pinned k.session.stage l.session.stage).Free :=
      Kinship.free_pinned _ _ _
    have works : Option.Rel (Session.Kin (lateKinship id token base))
        (k.session.work? S (some limit)) (l.session.work? S (some limit)) := by
      refine akin.kin.work (stages ▸ .refl _) (fun kin => kin) fun woken => ?_
      have blind : (lateKinship id token base).Blind k.session := by
        refine booked.blind_late (late.extend past) holds ?_
        rintro slip n first rest wake accepted rfl hs looks
        rcases unheard with deaf | blank
        · obtain ⟨more, hmore⟩ := Occurs.past reached
          refine deaf slip ?_ rfl
          rw [← hmore, acceptedIn_append]
          exact List.mem_append_left _ accepted
        · obtain ⟨value, more, looked⟩ := Occurs.looks reached focus settled woken hs looks
          obtain ⟨between, hbetween⟩ := past
          have whole := blank
            (between ++ ([.reached slip.task (.looked value) k.session.clock] ++ more))
            (by rw [looked, ← hbetween, List.append_assoc]; rfl)
          rw [looksIn_append, looksIn_append, show slip.id = slip.task.id from rfl, looksIn_reached,
            List.append_eq_nil_iff, List.append_eq_nil_iff] at whole
          cases whole.2.1
      refine rel_of_some (akin.kin.pin.advance free S stages.symm fair blind) ?_
      rintro u v - ⟨kin, stage⟩
      exact kin.mono rfl fun a b kin => ⟨stage.symm, kin.2⟩
    refine rel_of_some works ?_
    rintro u v - kin
    exact ⟨kin, akin.focus, akin.script, akin.answers⟩
  · intro rest caller script
    have free : ((lateKinship id token base).pinned k.session.stage l.session.stage).Free :=
      Kinship.free_pinned _ _ _
    have gone := akin.kin.pin.teardown free
    refine ⟨gone.mono rfl fun a b kin => ⟨rfl, kin.2⟩, rfl, rfl, ?_⟩
    simp only [answered, akin.answers, gone.clock]

/-- Who does not see the requests sees the same. -/
theorem sameButRequests_of_akin {actual other : Session × List (Reply × Nat)}
    (akin : Akin (lateKinship id token base) (last actual) (last other)) :
    SameButRequests id token base.reverse actual other := by
  obtain ⟨s, answers⟩ := actual
  obtain ⟨t, answers'⟩ := other
  obtain ⟨⟨agree, stage, later, others, heard, unheard, alike⟩, -, -, same⟩ := akin
  rename_i tokens stage' trail
  dsimp only [last] at agree stage heard unheard same
  subst stage
  have past : s.history = base.reverse ++ .cancelled id :: later.reverse := by
    simp [Session.history, heard]
  have deaf : trail.reverse = base.reverse ++ others.reverse := by simp [unheard]
  have alike : unrequested id later.reverse = unrequested id others.reverse := by
    simp only [unrequested, List.filter_reverse] at alike ⊢
    rw [alike]
  -- Whatever does not look at the requests reads the same off both histories.
  have read : ∀ {β : Type} (f : Happening → Option β), (∀ h, h.requests id = true → f h = none) →
      f (.cancelled id) = none → trail.reverse.filterMap f = s.history.filterMap f :=
    fun f blind uncancelled => by
      rw [deaf, past]
      exact filterMap_of_unrequested blind uncancelled alike
  refine ⟨same, rfl, fun t other => ?_, ⟨later.reverse, others.reverse, past, deaf, alike⟩, ?_, ?_,
    ?_⟩
  · exact (agree.shown t fun veiled => other (Option.some.inj veiled).symm).symm
  · refine read Happening.told? (fun h requests => ?_) rfl
    obtain ⟨record, rfl, -⟩ := Happening.log_of_requests requests
    rfl
  · refine read Happening.message? (fun h requests => ?_) rfl
    obtain ⟨record, rfl, -⟩ := Happening.log_of_requests requests
    rfl
  · simp only [logsIn, List.filter_filterMap]
    refine read _ (fun h requests => ?_) rfl
    obtain ⟨record, rfl, request⟩ := Happening.log_of_requests requests
    simp [Happening.log?, request]

/-- What is cancelled next is cancelled through its handle. -/
theorem cancels_of_next (next : i.next? S = some j) {more : List Happening}
    (hmore : j.session.history = i.session.history ++ more) (now : .cancelled id ∈ more) :
    ∃ token, i.Cancels id token := by
  obtain ⟨all, hall, few⟩ := (move_of_next next).occasions.few
  obtain rfl : all = more := List.append_cancel_left (hall.symm.trans hmore)
  cases few _ now .cancellation rfl with
  | @commanded c _ command brings =>
    cases c with
    | cancel handle =>
      rw [next_of_command command] at next
      cases next
      have added := congrArg cancelledIn hmore
      rw [cancelledIn_carriedOut command, cancelledIn_append, Session.perform,
        Session.cancelledIn_cancel, List.append_cancel_left_eq] at added
      have here : id ∈ cancelledIn all := List.mem_filterMap.2 ⟨_, now, rfl⟩
      rw [← added] at here
      cases held : i.session.handles[handle]? with
      | none => simp [held] at here
      | some pair =>
        obtain ⟨other, token⟩ := pair
        obtain rfl : id = other := by simpa [held] using here
        exact ⟨token, handle, command, held⟩
    | start => rcases brings with h | ⟨h, -⟩ <;> cases h
    | drop => cases brings
    | unreadable => cases brings

/-- A dispatch is cancelled where its cancellation is carried out. -/
theorem Occurs.cancelled {k : Instant} (occurs : Occurs S steps k)
    (happened : .cancelled id ∈ k.session.history) :
    ∃ i token, Occurs S steps i ∧ i.Cancels id token := by
  obtain ⟨i, j, before, next, -, -, more, hmore, now⟩ :=
    Occurs.occasion (r := .cancellation) occurs rfl happened
  obtain ⟨token, cancels⟩ := cancels_of_next next hmore now
  exact ⟨i, token, before, cancels⟩

end Instant

namespace Session

/-- Cancellations that come too late make no difference. -/
structure IgnoresLateCancels (S : Setup) (steps : List CallerStep) : Prop where
  occasion : ∀ id, .cancelled id ∈ (start.runScript S steps).history →
    ∃ i token, Instant.Occurs S steps i ∧ i.Cancels id token
  unheard : ∀ i id token, Instant.Occurs S steps i → i.Cancels id token →
    Late i.session.history id → Instant.Unheard S steps i id →
      SameButRequests id token i.session.history
        (start.runScript S steps, start.answers S steps)
        ((i.carriedOut (i.session, .ok)).outcome S)

/-- Whoever cancels a dispatch once its operation was constructed, or the dispatch was finished or
dropped, by a kind that cannot be cancelled or an operation that does not look any more, might as
well not have done so. -/
theorem late_cancels_unheard (S : Setup) (steps : List CallerStep) :
    IgnoresLateCancels S steps where
  occasion _ cancelled := Instant.Occurs.cancelled (Instant.occurs_last S steps) cancelled
  unheard := by
    intro i id token occurs cancels late unheard
    obtain ⟨handle, command, found⟩ := cancels.commanded
    have held : (id, token) ∈ i.session.handles := List.mem_of_getElem? found
    obtain ⟨kin, reply⟩ := kin_cancel found
    have next := Instant.next_of_command (S := S) command
    -- Whoever cancels is answered as one who does not.
    have done : i.session.perform S (.cancel handle) = ((i.session.cancel handle).1, .ok) :=
      Prod.ext rfl reply
    rw [done] at next
    have akin := Instant.outcome_of_lockstep (S := S)
      (R := Instant.Akin (lateKinship id token i.session.trail))
      (fun k l leads akin => unheard.next occurs late held
        (Relation.ReflTransGen.head next leads) akin)
      (Instant.akin_carriedOut command kin .ok)
    rw [Instant.outcome_next next, Instant.Occurs.outcome occurs] at akin
    exact Instant.sameButRequests_of_akin akin

/-- An operation of a kind that cannot be cancelled is cancelled while it runs. -/
theorem late_cancels_unheard_of_running : ∃ i token,
    Instant.Occurs (.sample []) [.begin .revoke .unneeded, .sleep 5, .command (.cancel 0)] i ∧
      i.Cancels 1 token ∧ Late i.session.history 1 ∧
      Instant.Unheard (.sample []) [.begin .revoke .unneeded, .sleep 5, .command (.cancel 0)] i 1 ∧
      SameButRequests 1 token i.session.history
        (start.runScript (.sample [])
            [.begin .revoke .unneeded, .sleep 5, .command (.cancel 0)],
          start.answers (.sample [])
            [.begin .revoke .unneeded, .sleep 5, .command (.cancel 0)])
        ((i.carriedOut (i.session, .ok)).outcome (.sample [])) := by
  obtain ⟨i, session, command, occurs⟩ : ∃ i : Instant,
      i.session = start.runScript (.sample []) [.begin .revoke .unneeded, .sleep 5] ∧
        i.command? = some (.cancel 0) ∧ Instant.Occurs (.sample [])
          [.begin .revoke .unneeded, .sleep 5, .command (.cancel 0)] i :=
    ⟨_, rfl, rfl, Instant.occurs_between [_, _] [_]⟩
  have before := runScript_of_within (S := .sample []) 60
    (fun s => (s.handles, milestonesIn s.history 1))
    (show (start.scriptWithin (.sample []) 60 [.begin .revoke .unneeded, .sleep 5]).map _ =
      some ([(1, 0)], [.submitted 0, .taken, .checked false, .constructed 0]) from rfl)
  rw [← session, Prod.mk.injEq] at before
  obtain ⟨handles, milestones⟩ := before
  have accepted := runScript_of_within (S := .sample []) 60 (fun s => acceptedIn s.history)
    (show (start.scriptWithin (.sample []) 60
      [.begin .revoke .unneeded, .sleep 5, .command (.cancel 0)]).map _ =
        some [⟨⟨1, ⟨.revoke, ⟨[]⟩⟩, .default, 0, false⟩, 0⟩] from rfl)
  have cancels : i.Cancels 1 0 := ⟨0, command, by rw [handles]; rfl⟩
  have late : Late i.session.history 1 := .constructed (n := 0) (by simp [milestones])
  have unheard : Instant.Unheard (.sample [])
      [.begin .revoke .unneeded, .sleep 5, .command (.cancel 0)] i 1 := .inl fun slip hslip _ => by
    rw [accepted] at hslip
    rw [List.mem_singleton.1 hslip]
    rfl
  exact ⟨i, 0, occurs, cancels, late, unheard,
    (late_cancels_unheard _ _).unheard i 1 0 occurs cancels late unheard⟩

end Session

end SerialDispatch
