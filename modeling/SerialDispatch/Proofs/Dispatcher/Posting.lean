import SerialDispatch.Proofs.Dispatcher.Books
import SerialDispatch.Proofs.Dispatcher.Deeds
import SerialDispatch.Proofs.Dispatcher.Relay

/-!
# What is posted

Whatever caller and worker do, they only add to the history and to the mailbox: the callbacks that
are attached, and what they were told, are the concern of delivery alone. `Session.Posts` says so.
-/
namespace SerialDispatch

namespace Session

/-- Every dispatch was accepted with a callback of its own, and a higher one than those before. -/
structure Numbered (s : Session) : Prop where
  ascending : (acceptedIn s.history).Pairwise fun a b => a.callback < b.callback
  below : ∀ slip ∈ acceptedIn s.history, slip.callback < s.starts

/-- Between two sessions messages were sent, and none was delivered. -/
structure Posts (s t : Session) : Prop where
  past : s.history <+: t.history
  alive : t.alive = s.alive
  phase : t.phase = s.phase
  callbacks : t.callbacks = s.callbacks
  told : toldIn t.history = toldIn s.history
  mail : s.phase = .alive → ∃ sent,
    messagesIn t.history = messagesIn s.history ++ sent ∧ t.mailbox = s.mailbox ++ sent
  numbered : s.Numbered → t.Numbered

/-- What a session has that delivery, and the numbers of the callbacks, depend on. -/
structure DeliverySide where
  alive : Bool
  phase : Phase
  callbacks : Callbacks Command
  mailbox : List (Message Command)
  starts : Nat
  trail : List Happening

def deliverySide (s : Session) : DeliverySide where
  alive := s.alive
  phase := s.phase
  callbacks := s.callbacks
  mailbox := s.mailbox
  starts := s.starts
  trail := s.trail

theorem past_record (s : Session) (h : Happening) : s.history <+: (s.record h).history := by
  rw [history_record]
  exact List.prefix_append _ _

theorem Numbered.of_same {s t : Session} (numbered : s.Numbered)
    (accepted : acceptedIn t.history = acceptedIn s.history) (starts : t.starts = s.starts) :
    t.Numbered := by
  constructor
  · rw [accepted]
    exact numbered.ascending
  · rw [accepted, starts]
    exact numbered.below

theorem acceptedIn_send (s : Session) (m : Message Command) :
    acceptedIn (s.send m).history = acceptedIn s.history := by
  obtain ⟨h, posts, hhistory, -, -, -⟩ := send_posts s m
  rw [hhistory, acceptedIn_append, acceptedIn_singleton, (Ledger.no_milestone_of_message posts).1]
  exact List.append_nil _

theorem acceptedIn_submit {s : Session} {callback : Nat} {task : Task} {inbox : Inbox Task}
    (takes : s.inbox.submit task = .ok inbox) :
    acceptedIn (s.submit callback task).history = acceptedIn s.history ++ [⟨task, callback⟩] := by
  unfold submit
  rw [takes]
  show acceptedIn (({ s with inbox := inbox }.reach task _).log _).history = _
  rw [history_log, history_reach, acceptedIn_append, acceptedIn_append, acceptedIn_singleton,
    acceptedIn_singleton]
  exact List.append_nil _

theorem acceptedIn_submit_error {s : Session} {callback : Nat} {task : Task} {e : SubmitError}
    (refuses : s.inbox.submit task = .error e) :
    acceptedIn (s.submit callback task).history = acceptedIn s.history := by
  unfold submit
  rw [refuses]
  refine (acceptedIn_send _ _).trans ?_
  show acceptedIn (s.log (.dispatchRefused task.id task.request.kind e)).history = _
  rw [history_log, acceptedIn_append, acceptedIn_singleton]
  exact List.append_nil _

namespace Numbered

variable {S : Setup} {s t : Session}

theorem chores (numbered : s.Numbered) (chores : Chores s t) : t.Numbered := by
  refine lift_parts (R := fun u v => u.Numbered → v.Numbered) chores (fun _ => id)
    (fun first second => second ∘ first) (fun {u v} chore kept => ?_) numbered
  cases chore with
  | own same => exact kept.of_same (by rw [same]; rfl) (by rw [same])
  | @wrote h routine =>
    refine kept.of_same ?_ rfl
    rw [history_record, acceptedIn_append, acceptedIn_singleton,
      (Happening.plain_of_routine routine).unaccepted]
    exact List.append_nil _
  | sent m => exact kept.of_same (acceptedIn_send u m) (starts_send u m)

/-- A dispatch is submitted with a callback whose number no dispatch has had before. -/
theorem submit (numbered : s.Numbered) {callback : Nat}
    (fresh : ∀ slip ∈ acceptedIn s.history, slip.callback < callback)
    (counted : callback < s.starts) (task : Task) : (s.submit callback task).Numbered := by
  have starts := starts_submit s callback task
  cases takes : s.inbox.submit task with
  | error e => exact numbered.of_same (acceptedIn_submit_error takes) starts
  | ok inbox =>
    refine ⟨?_, fun slip hslip => ?_⟩
    · rw [acceptedIn_submit takes]
      refine List.pairwise_append.2
        ⟨numbered.ascending, List.pairwise_singleton _ _, fun a ha b hb => ?_⟩
      rw [List.mem_singleton.1 hb]
      exact fresh a ha
    · rw [acceptedIn_submit takes] at hslip
      rw [starts]
      rcases List.mem_append.1 hslip with old | new
      · exact numbered.below slip old
      · rw [List.mem_singleton.1 new]
        exact counted

/-- A start is counted before its callback gets the number that it had. -/
theorem start (numbered : s.Numbered) (request : Request) (input : CryptoInput)
    (surface : Surface) (panicsOn : Option Trigger) (reactions : List (Trigger × List Command)) :
    ({ s with starts := s.starts + 1 }.startRequest S request input surface
      ⟨s.starts, panicsOn, reactions⟩).1.Numbered := by
  have counted : { s with starts := s.starts + 1 }.Numbered :=
    ⟨numbered.ascending, fun slip hslip => Nat.lt_succ_of_lt (numbered.below slip hslip)⟩
  unfold startRequest
  cases S.registry.resolve request.kind with
  | error refusal => exact counted
  | ok factory =>
    dsimp only
    have allotted := counted.of_same (t := { s with starts := s.starts + 1 }.allot) rfl rfl
    split
    · exact allotted
    · refine (allotted.of_same (acceptedIn_send _ _) (starts_send _ _)).submit ?_ ?_ _
      · rw [acceptedIn_send]
        exact numbered.below
      · rw [starts_send]
        exact Nat.lt_succ_self _

theorem cancel (numbered : s.Numbered) (handle : Nat) : (s.cancel handle).1.Numbered := by
  unfold Session.cancel
  cases s.handles[handle]? with
  | none => exact numbered
  | some pair =>
    obtain ⟨id, token⟩ := pair
    dsimp only
    split
    · refine numbered.of_same ?_ rfl
      rw [history_record, acceptedIn_append]
      exact List.append_nil _
    · refine numbered.of_same ?_ rfl
      rw [history_log, history_record, List.append_assoc, acceptedIn_append]
      exact List.append_nil _

theorem perform (numbered : s.Numbered) (c : Command) : (s.perform S c).1.Numbered := by
  cases c with
  | start request input surface panicsOn reactions =>
    simp only [Session.perform]
    split
    · exact numbered
    · split
      · exact numbered.start request input surface panicsOn reactions
      · exact ⟨numbered.ascending, fun slip hslip => Nat.lt_succ_of_lt (numbered.below slip hslip)⟩
  | cancel handle => exact numbered.cancel handle
  | drop =>
    simp only [Session.perform]
    split
    · exact numbered.chores (.signalStop s .gone)
    · exact numbered
  | unreadable word fault => exact numbered

end Numbered

namespace Posts

variable {S : Setup} {s t u : Session}

/-- Deeds post what they send. -/
theorem acts (acts : Acts s t) (numbered : s.Numbered → t.Numbered) : Posts s t := by
  have past := acts.past
  obtain ⟨deeds, does⟩ := acts
  refine ⟨past, does.alive, does.phase, does.callbacks, ?_,
    fun alive => ⟨sentIn deeds, ?_, does.mailbox⟩, numbered⟩
  · rw [does.history, toldIn_append, does.untold]
    exact List.append_nil _
  · rw [does.history, messagesIn_append, does.messages alive]

theorem refl (s : Session) : Posts s s :=
  ⟨List.prefix_rfl, rfl, rfl, rfl, rfl, fun _ => ⟨[], by simp, by simp⟩, id⟩

theorem frame (side : t.deliverySide = s.deliverySide) : Posts s t := by
  have htrail : t.trail = s.trail := congrArg DeliverySide.trail side
  have hhistory : t.history = s.history := congrArg List.reverse htrail
  refine ⟨⟨[], by rw [List.append_nil, hhistory]⟩, congrArg DeliverySide.alive side,
    congrArg DeliverySide.phase side, congrArg DeliverySide.callbacks side, by rw [hhistory],
    fun _ => ⟨[], ?_, ?_⟩, fun numbered => ?_⟩
  · rw [hhistory, List.append_nil]
  · rw [List.append_nil]
    exact congrArg DeliverySide.mailbox side
  · exact numbered.of_same (by rw [hhistory]) (congrArg DeliverySide.starts side)

theorem trans (first : Posts s t) (second : Posts t u) : Posts s u := by
  refine ⟨first.past.trans second.past, second.alive.trans first.alive,
    second.phase.trans first.phase, second.callbacks.trans first.callbacks,
    second.told.trans first.told, fun hs => ?_,
    fun numbered => second.numbered (first.numbered numbered)⟩
  obtain ⟨sent, hmessages, hmailbox⟩ := first.mail hs
  obtain ⟨more, hmessages', hmailbox'⟩ := second.mail (first.phase.trans hs)
  refine ⟨sent ++ more, ?_, ?_⟩
  · rw [hmessages', hmessages, List.append_assoc]
  · rw [hmailbox', hmailbox, List.append_assoc]

/-- Something other than a message, a call or a new dispatch is recorded. -/
theorem record (s : Session) {h : Happening} (unsent : h.message? = none) (untold : h.told? = none)
    (unaccepted : h.accepted? = none) : Posts s (s.record h) := by
  refine ⟨past_record s h, rfl, rfl, rfl, ?_, fun _ => ⟨[], ?_, ?_⟩,
    fun numbered => numbered.of_same ?_ rfl⟩
  · rw [history_record, toldIn_append, toldIn_singleton, untold]
    exact List.append_nil _
  · rw [history_record, messagesIn_append, messagesIn_singleton, unsent]
    rfl
  · exact (List.append_nil _).symm
  · rw [history_record, acceptedIn_append, acceptedIn_singleton, unaccepted]
    exact List.append_nil _

theorem log (s : Session) (event : LogEvent) : Posts s (s.log event) := record s rfl rfl rfl

theorem note (s : Session) (n : WorkerNote) : Posts s (s.note n) := record s rfl rfl rfl

/-- The chores of the worker deliver nothing and accept nothing. -/
theorem chores (chores : Chores s t) : Posts s t :=
  acts (.chores chores) fun numbered => numbered.chores chores

theorem signalStop (s : Session) (owner : Owner) : Posts s (s.signalStop owner) :=
  chores (.signalStop s owner)

theorem perform (S : Setup) (s : Session) (c : Command) : Posts s (s.perform S c).1 :=
  acts (.perform S s c) fun numbered => numbered.perform c

theorem react (S : Setup) (callback : Nat) (s : Session) (c : Command) :
    Posts s (s.react S callback c) :=
  (perform S s c).trans (record _ rfl rfl rfl)

theorem reactions (S : Setup) (callback : Nat) (s : Session) (cs : List Command) :
    Posts s (cs.foldl (Session.react S callback) s) := by
  induction cs generalizing s with
  | nil => exact refl s
  | cons c rest ih => exact (react S callback s c).trans (ih _)

theorem logShutdown (s : Session) : Posts s s.logShutdown :=
  logShutdown_induct (motive := (Posts s ·)) (refl s) (fun u posts => posts.trans (log u _))
    fun u posts => posts.trans (log u _)

theorem finishShutdown (s : Session) : Posts s s.finishShutdown := by
  have gone : Posts s { s with owner := .gone } := frame rfl
  exact (gone.trans (logShutdown _)).trans (note _ _)

theorem advance (S : Setup) (h : s.advance? S = some t) : Posts s t := by
  cases turn_of_advance h with
  | routine did => exact chores did
  | constructing task ready did =>
    have counted : Posts s { s with constructed := s.constructed + 1 } := frame rfl
    exact (counted.trans (record _ rfl rfl rfl)).trans (chores did)
  | commanded task n c rest =>
    exact ((perform S s c).trans (note _ _)).trans (frame rfl)
  | finishing => exact finishShutdown s

theorem through (s : Session) (sink : Nat) (signal : Signal) :
    Posts s (s.through sink signal).1 := chores (.through s sink signal)

end Posts

end Session
end SerialDispatch
