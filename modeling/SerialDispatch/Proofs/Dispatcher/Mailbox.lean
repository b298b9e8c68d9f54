import SerialDispatch.Proofs.Dispatcher.Posting

/-!
# Delivery without coalescing

A session that does not coalesce is a relay with a mailbox: as long as delivery goes on, what has
been taken from the mailbox and what waits in it are together all that was sent, and the callbacks
were told what was taken. Everything but delivery only adds to the mailbox, and delivery passes on
its first message; main statement: `Session.delivers_runScript`.
-/
namespace SerialDispatch.Session

/-- The callbacks that the session knows, and what they were told, are those of a relay. -/
structure Echoes (s : Session) (r : Relay) : Prop where
  known : ∀ id, r.known id = s.callbacks.number? id
  told : toldIn s.history = r.told

/-- The messages `passed` were taken from the mailbox, in order, and passed on as a relay does. -/
structure Relays (s : Session) (passed : List (Message Command)) : Prop where
  sent : messagesIn s.history = passed ++ s.mailbox
  known : ∀ id, (Relay.start.passAll passed).known id = s.callbacks.number? id
  told : toldIn s.history = (Relay.start.passAll passed).told

/-- What holds of delivery at any time. -/
structure Delivers (S : Setup) (s : Session) : Prop where
  numbered : s.Numbered
  vanished : s.phase = .vanished → s.alive = false
  plain : S.config.coalescing = false → s.phase = .alive → ∃ passed, s.Relays passed

section Delivery

variable {S : Setup} {s t : Session}

theorem Relays.posts {passed : List (Message Command)} (relays : s.Relays passed)
    (posts : Posts s t) (hs : s.phase = .alive) : t.Relays passed := by
  obtain ⟨sent, hmessages, hmailbox⟩ := posts.mail hs
  refine ⟨?_, fun id => ?_, posts.told.trans relays.told⟩
  · rw [hmessages, relays.sent, hmailbox, List.append_assoc]
  · rw [relays.known, posts.callbacks]

theorem Delivers.posts (delivers : Delivers S s) (posts : Posts s t) : Delivers S t := by
  refine ⟨posts.numbered delivers.numbered, fun ht => ?_, fun plain ht => ?_⟩
  · rw [posts.alive]
    exact delivers.vanished (posts.phase.symm.trans ht)
  · have hs : s.phase = .alive := posts.phase.symm.trans ht
    obtain ⟨passed, relays⟩ := delivers.plain plain hs
    exact ⟨passed, relays.posts posts hs⟩

/-- A signal is brought to its callback: it is told, and the callback reacts or panics. -/
theorem deliverEvent_cases (S : Setup) (s : Session) (e : Event) :
    (s.callbacks.number? e.id = none ∧ Posts s (s.deliverEvent S e)) ∨
    ∃ callback, s.callbacks.find? e.id = some callback ∧
      let told := { s with callbacks := s.callbacks.after e }.record (.told callback.number e)
      (s.deliverEvent S e = told.panicDelivery ∨ Posts told (s.deliverEvent S e)) := by
  rcases deliverEvent_outcome S s e with ⟨unknown, h⟩ | ⟨callback, found, ⟨-, h⟩ | ⟨-, h⟩⟩
  · rw [h, Callbacks.number?, unknown]
    exact .inl ⟨rfl, Posts.log s _⟩
  · exact .inr ⟨callback, found, .inl h⟩
  · rw [h]
    exact .inr ⟨callback, found, .inr (Posts.reactions S _ _ _)⟩

theorem Numbered.told (numbered : s.Numbered) (cs : Callbacks Command) (callback : Nat)
    (e : Event) : ({ s with callbacks := cs }.record (.told callback e)).Numbered := by
  refine numbered.of_same ?_ rfl
  rw [history_record, acceptedIn_append, acceptedIn_singleton]
  exact List.append_nil _

theorem Echoes.posts {r : Relay} (echoes : s.Echoes r) (posts : Posts s t) : t.Echoes r :=
  ⟨fun id => by rw [posts.callbacks, echoes.known], posts.told.trans echoes.told⟩

/-- A signal is for nobody, or is told, as long as delivery goes on; meanwhile more may be sent. -/
theorem Echoes.deliverEvent {r : Relay} {e : Event} (echoes : s.Echoes r)
    (hs : s.phase = .alive) (ht : (s.deliverEvent S e).phase = .alive) :
    (s.deliverEvent S e).Echoes (r.pass (.event e : Message Command)) ∧ ∃ sent,
      messagesIn (s.deliverEvent S e).history = messagesIn s.history ++ sent ∧
        (s.deliverEvent S e).mailbox = s.mailbox ++ sent := by
  rcases deliverEvent_cases S s e with ⟨hnone, posts⟩ | ⟨callback, hfind, hcases⟩
  · rw [Relay.pass_unknown r (by rw [echoes.known, hnone])]
    exact ⟨echoes.posts posts, posts.mail hs⟩
  · have hr : r.known e.id = some callback.number := by
      rw [echoes.known, Callbacks.number?, hfind]
      rfl
    rcases hcases with hpanic | posts
    · rw [hpanic] at ht
      cases ht
    · refine ⟨Echoes.posts ⟨fun id => ?_, ?_⟩ posts, ?_⟩
      · rw [Relay.known_pass, echoes.known]
        exact (Callbacks.number_after id hfind).symm
      · rw [Relay.told_pass r hr, history_record, toldIn_append, toldIn_singleton, ← echoes.told]
        rfl
      · obtain ⟨sent, hmessages, hmailbox⟩ := posts.mail hs
        refine ⟨sent, ?_, hmailbox⟩
        rw [hmessages, history_record, messagesIn_append, messagesIn_singleton]
        exact congrArg (· ++ sent) (List.append_nil _)

/-- A signal just taken from the mailbox is for nobody, or is told, and delivery goes on. -/
theorem Relays.deliverEvent {passed : List (Message Command)} {e : Event}
    (relays : Relays { s with mailbox := .event e :: s.mailbox } passed) (hs : s.phase = .alive)
    (ht : (s.deliverEvent S e).phase = .alive) :
    (s.deliverEvent S e).Relays (passed ++ [.event e]) := by
  have echoes : s.Echoes (Relay.start.passAll passed) := ⟨relays.known, relays.told⟩
  obtain ⟨after, sent, hmessages, hmailbox⟩ := echoes.deliverEvent hs ht
  have hpass : Relay.start.passAll (passed ++ [.event e]) =
      (Relay.start.passAll passed).pass (.event e : Message Command) :=
    Relay.passAll_append _ _ _
  have hsent : messagesIn s.history = passed ++ .event e :: s.mailbox := relays.sent
  refine ⟨?_, by rw [hpass]; exact after.known, by rw [hpass]; exact after.told⟩
  rw [hmessages, hmailbox, hsent]
  simp

/-- A registration just taken from the mailbox takes effect. -/
theorem Relays.attach {passed : List (Message Command)} {id : DispatchId}
    {callback : Callback Command}
    (relays : Relays { s with mailbox := .attach id callback :: s.mailbox } passed) :
    Relays { s with callbacks := s.callbacks.attach id callback }
      (passed ++ [.attach id callback]) := by
  have hpass : Relay.start.passAll (passed ++ [.attach id callback]) =
      (Relay.start.passAll passed).pass (.attach id callback) := Relay.passAll_append _ _ _
  obtain ⟨hsent, hknown, htold⟩ := relays
  refine ⟨?_, fun other => ?_, ?_⟩
  · rw [List.append_assoc]
    exact hsent
  · rw [hpass, Callbacks.number_attach]
    have hother := hknown other
    by_cases hid : other = id
    · simp [Relay.pass, Relay.set, hid]
    · simpa [Relay.pass, Relay.set, hid] using hother
  · rw [hpass]
    exact htold

theorem Numbered.deliverEvents (numbered : s.Numbered) (events : List Event) :
    (s.deliverEvents S events).Numbered := by
  refine lift_parts (R := fun u v => u.Numbered → v.Numbered) (carrying_deliverEvents S s events)
    (fun _ => id) (fun first second => second ∘ first) (fun {u v} carries kept => ?_) numbered
  cases carries with
  | unclaimed e => exact (Posts.log u _).numbered kept
  | called callback e => exact kept.told _ _ _
  | panicked => exact kept.of_same rfl rfl
  | reacted callback c => exact (Posts.react S callback u c).numbered kept

/-- Whatever is done for one session leads to another that still has the past of the first and as
much to run on, and in which no worker has vanished. -/
structure Follows (s t : Session) : Prop where
  past : s.history <+: t.history
  alive : t.alive = s.alive
  phase : t.phase = s.phase ∨ t.phase = .panicked

theorem Posts.follows (posts : Posts s t) : Follows s t :=
  ⟨posts.past, posts.alive, .inl posts.phase⟩

theorem Follows.trans {u : Session} (first : Follows s t) (second : Follows t u) : Follows s u := by
  refine ⟨first.past.trans second.past, second.alive.trans first.alive, ?_⟩
  rcases second.phase with h | h
  · rw [h]
    exact first.phase
  · exact .inr h

/-- Whatever delivery does with events, it keeps the past. -/
theorem follows_of_carrying (carrying : Relation.ReflTransGen (Carrying S) s t) : Follows s t := by
  refine lift_parts carrying (fun u => (Posts.refl u).follows) Follows.trans
    fun {u v} carries => ?_
  cases carries with
  | unclaimed e => exact (Posts.log u _).follows
  | called callback e => exact ⟨past_record u _, rfl, .inl rfl⟩
  | panicked => exact ⟨List.prefix_rfl, rfl, .inr rfl⟩
  | reacted callback c => exact (Posts.react S callback u c).follows

theorem follows_deliverEvents (S : Setup) (s : Session) (events : List Event) :
    Follows s (s.deliverEvents S events) := follows_of_carrying (carrying_deliverEvents S s events)

/-- The session when delivery has taken the next batch, and has told nobody of it. -/
def taken (S : Setup) (s : Session) : Session := { s with
  mailbox := (Message.nextBatch S.config.coalescing s.mailbox).2
  callbacks := Message.registered (Message.nextBatch S.config.coalescing s.mailbox).1 s.callbacks
  turn := s.turn.delivered }

/-- What delivery has to tell of the next batch. -/
def dueEvents (S : Setup) (s : Session) : List Event :=
  Message.events S.config.coalescing (Message.nextBatch S.config.coalescing s.mailbox).1

theorem deliverRound_eq (S : Setup) (s : Session) :
    s.deliverRound S = (s.taken S).deliverEvents S (s.dueEvents S) := rfl

theorem follows_deliverRound (S : Setup) (s : Session) : Follows s (s.deliverRound S) := by
  have taken : ∀ (mailbox : List (Message Command)) (callbacks : Callbacks Command) (turn : Turn),
      Follows s { s with mailbox := mailbox, callbacks := callbacks, turn := turn } :=
    fun _ _ _ => ⟨List.prefix_rfl, rfl, .inl rfl⟩
  exact (taken _ _ _).trans (follows_deliverEvents S _ _)

section Plain

variable (plain : S.config.coalescing = false)

include plain

theorem deliverRound_nil (hm : s.mailbox = []) :
    s.deliverRound S = { s with turn := s.turn.delivered } := by
  have hself : { s with turn := s.turn.delivered } =
      { s with mailbox := [], turn := s.turn.delivered } := by rw [← hm]
  rw [hself]
  unfold Session.deliverRound
  rw [plain, hm]
  rfl

theorem deliverRound_attach {id : DispatchId} {callback : Callback Command}
    {rest : List (Message Command)} (hm : s.mailbox = .attach id callback :: rest) :
    s.deliverRound S = { s with
      mailbox := rest
      callbacks := s.callbacks.attach id callback
      turn := s.turn.delivered } := by
  unfold Session.deliverRound
  rw [plain, hm]
  rfl

theorem deliverRound_event {e : Event} {rest : List (Message Command)}
    (hm : s.mailbox = .event e :: rest) :
    s.deliverRound S = { s with mailbox := rest, turn := s.turn.delivered }.deliverEvent S e := by
  unfold Session.deliverRound
  rw [plain, hm]
  show deliverEvents S { s with mailbox := rest, turn := s.turn.delivered } [e] = _
  simp only [deliverEvents, ite_self]

end Plain

theorem Delivers.deliverRound (delivers : Delivers S s) : Delivers S (s.deliverRound S) := by
  obtain ⟨-, halive, hphase⟩ := follows_deliverRound S s
  refine ⟨?_, fun hv => ?_, fun plain ht => ?_⟩
  · have taken : ∀ (mailbox : List (Message Command)) (callbacks : Callbacks Command) (turn : Turn),
        Numbered { s with mailbox := mailbox, callbacks := callbacks, turn := turn } :=
      fun _ _ _ => delivers.numbered.of_same rfl rfl
    exact (taken _ _ _).deliverEvents _
  · rw [halive]
    rcases hphase with h | h
    · exact delivers.vanished (h.symm.trans hv)
    · rw [h] at hv
      cases hv
  · have hs : s.phase = .alive := by
      rcases hphase with h | h
      · exact h.symm.trans ht
      · rw [h] at ht
        cases ht
    obtain ⟨passed, relays⟩ := delivers.plain plain hs
    cases hm : s.mailbox with
    | nil =>
      rw [deliverRound_nil plain hm]
      exact ⟨passed, relays.sent, relays.known, relays.told⟩
    | cons m rest =>
      have before : Relays { s with mailbox := m :: rest, turn := s.turn.delivered } passed :=
        ⟨by rw [← hm]; exact relays.sent, relays.known, relays.told⟩
      cases m with
      | attach id callback =>
        rw [deliverRound_attach plain hm]
        exact ⟨_, Relays.attach (s := { s with mailbox := rest, turn := s.turn.delivered }) before⟩
      | event e =>
        rw [deliverRound_event plain hm] at ht ⊢
        exact ⟨_, Relays.deliverEvent before hs ht⟩

theorem follows_next {limit : Option Nat} (h : s.next? S limit = some t) : Follows s t := by
  cases next_cases h with
  | delivered => exact follows_deliverRound S s
  | woke => exact ⟨List.prefix_rfl, rfl, .inl rfl⟩
  | worked _ works => exact (Posts.advance S works).follows

theorem follows_run (S : Setup) (limit : Option Nat) (s : Session) :
    Follows s (s.run S limit) := by
  fun_induction Session.run S limit s with
  | case1 s _ => exact (Posts.refl s).follows
  | case2 s t next ih => exact (follows_next next).trans ih

theorem Delivers.next {limit : Option Nat} (delivers : Delivers S s)
    (h : s.next? S limit = some t) : Delivers S t := by
  cases next_cases h with
  | delivered => exact delivers.deliverRound
  | woke => exact delivers.posts (.frame rfl)
  | worked _ works => exact delivers.posts (.advance S works)

theorem Delivers.run (limit : Option Nat) (delivers : Delivers S s) :
    Delivers S (s.run S limit) := by
  fun_induction Session.run S limit s with
  | case1 s _ => exact delivers
  | case2 s t next ih => exact ih (delivers.next next)

theorem Delivers.shutdown (delivers : Delivers S s) : Delivers S (s.shutdown S).1 := by
  have signalled : Delivers S { s.signalStop .gone with turn := .first } :=
    (delivers.posts (.signalStop s .gone)).posts (.frame rfl)
  have ran := signalled.run (some (s.clock + patience))
  unfold Session.shutdown
  dsimp only
  split
  · exact ran.posts (.logShutdown _)
  · exact ran.posts (.frame rfl)

theorem Delivers.teardown (delivers : Delivers S s) : Delivers S s.teardown := by
  have recorded := delivers.posts (.record s (h := .tornDown) rfl rfl rfl)
  exact ⟨recorded.numbered.of_same rfl rfl, fun _ => rfl, fun _ h => by cases h⟩

theorem Delivers.step (delivers : Delivers S s) (step : CallerStep) :
    Delivers S (s.step S step).1 := by
  cases step with
  | command command => exact delivers.posts (.perform S s command)
  | sleep duration =>
    simp only [Session.step]
    split
    · exact delivers
    · split
      · exact delivers
      · have turned : Delivers S { s with turn := .first } := delivers.posts (.frame rfl)
        exact (turned.run _).posts (.frame rfl)
  | shutdown =>
    simp only [Session.step]
    split
    · exact delivers
    · split
      · exact delivers.shutdown
      · exact delivers
  | lateProgress sink update => exact delivers.posts (.through s sink _)
  | latePrevent sink => exact delivers.posts (.through s sink _)
  | release sink => exact delivers.posts (.frame rfl)
  | store step => exact delivers.posts (.frame rfl)
  | teardown => exact delivers.teardown
  | unreadable fault => exact delivers

/-- Nothing that has happened is ever undone. -/
theorem past_step (S : Setup) (s : Session) (step : CallerStep) :
    s.history <+: (s.step S step).1.history := by
  cases step with
  | command command => exact (Posts.perform S s command).past
  | sleep duration =>
    simp only [Session.step]
    split
    · exact List.prefix_rfl
    · split
      · exact List.prefix_rfl
      · exact (follows_run S _ { s with turn := .first }).past
  | shutdown =>
    simp only [Session.step]
    split
    · exact List.prefix_rfl
    · split
      · have ran := (Posts.signalStop s .gone).past.trans
          (follows_run S (some (s.clock + patience))
            { s.signalStop .gone with turn := .first }).past
        unfold Session.shutdown
        dsimp only
        split
        · exact ran.trans (Posts.logShutdown _).past
        · exact ran
      · exact List.prefix_rfl
  | lateProgress sink update => exact (Posts.through s sink _).past
  | latePrevent sink => exact (Posts.through s sink _).past
  | release sink => exact List.prefix_rfl
  | store step => exact List.prefix_rfl
  | teardown => exact past_record s _
  | unreadable fault => exact List.prefix_rfl

theorem past_script (S : Setup) (s : Session) (steps : List CallerStep) :
    s.history <+: (s.runScript S steps).history := by
  induction steps generalizing s with
  | nil => exact List.prefix_rfl
  | cons step rest ih => exact (past_step S s step).trans (ih _)

theorem past_earlier (S : Setup) (s : Session) {earlier steps : List CallerStep}
    (h : earlier <+: steps) :
    (s.runScript S earlier).history <+: (s.runScript S steps).history := by
  obtain ⟨later, rfl⟩ := h
  have hall : s.runScript S (earlier ++ later) = (s.runScript S earlier).runScript S later :=
    List.foldl_append
  rw [hall]
  exact past_script S _ later

theorem delivers_start (S : Setup) : Delivers S start := by
  have numbered : start.Numbered := ⟨.nil, fun _ h => absurd h List.not_mem_nil⟩
  refine ⟨numbered, (fun h => by cases h), fun _ _ => ⟨[], ?_⟩⟩
  exact ⟨rfl, fun _ => rfl, rfl⟩

/-- Delivery does its part in every session that a script leads to. -/
theorem delivers_runScript (S : Setup) (steps : List CallerStep) :
    Delivers S (start.runScript S steps) := by
  unfold runScript
  induction steps using List.reverseRecOn with
  | nil => exact delivers_start S
  | append_singleton steps step ih =>
    rw [List.foldl_append]
    exact ih.step step

end Delivery
end SerialDispatch.Session
