import SerialDispatch.Proofs.Dispatcher.Course
import SerialDispatch.Proofs.Dispatcher.Working

/-!
# When a callback panics

While delivery goes on it knows one callback for each dispatch and calls none that panics. The first
that does ends it: what waits is gone, and from then on nobody is told anything. `Session.Orderly`
says so of a session at any time, and that shutdowns report the death of delivery but never that of
the worker. Main statement: `Session.orderly_runScript`.
-/
namespace SerialDispatch

namespace Ledger

variable {S : Setup} {l m : Ledger} {h : Happening} {history : List Happening}

/-- A callback is attached for nobody that was heard of before. -/
theorem Step.attaches (step : l.Step S h m) {id : DispatchId} {callback : Callback Command}
    (posts : h.message? = some (.attach id callback)) :
    l.opened = none ∧ (∀ slip ∈ l.accepted, slip.id < id) ∧
      m.opened = some (id, callback.number) := by
  have other : ∀ {e : Event}, h.message? = some (.event e) → False := fun event => by
    rw [event] at posts
    cases posts
  cases step with
  | attached attach alone fresh =>
    rw [attach] at posts
    cases posts
    exact ⟨alone, fresh, rfl⟩
  | silent silent =>
    cases h with
    | sent _ => cases silent
    | lost _ => cases silent
    | _ => cases posts
  | worked desk alone moves =>
    cases moves with
    | emitted x event unfinished => exact (other event).elim
    | _ => cases posts
  | finished desk event => exact (other event).elim
  | through late event begun unfinished => exact (other event).elim
  | _ => cases posts

/-- Whoever a callback was attached for has been accepted or is about to be submitted. -/
theorem Run.attached (run : Run S .empty history l) (there : l.torn = false) {id : DispatchId}
    {callback : Callback Command} (attached : .attach id callback ∈ messagesIn history) :
    (∃ slip ∈ l.accepted, slip.id = id) ∨ ∃ n, l.opened = some (id, n) := by
  induction run with
  | nil => cases attached
  | @snoc history h l m run step ih =>
    rw [messagesIn_append, messagesIn_singleton] at attached
    rcases List.mem_append.1 attached with earlier | now
    · have grown : ∀ slip ∈ l.accepted, slip ∈ m.accepted := fun slip hslip => by
        rw [step.accepted]
        exact List.mem_append_left _ hslip
      rcases ih (step.there there) earlier with ⟨slip, hslip, hid⟩ | ⟨n, opened⟩
      · exact .inl ⟨slip, grown slip hslip, hid⟩
      · cases step with
        | attached posts alone fresh =>
          rw [alone] at opened
          cases opened
        | submitted slip time first going stands =>
          rw [first] at opened
          cases opened
          exact .inl ⟨slip, by simp [Ledger.accepted, roll], rfl⟩
        | refused first torn =>
          rw [show l.torn = false from there] at torn
          cases torn
        | _ => exact .inr ⟨n, opened⟩
    · exact .inr ⟨_, (step.attaches (Option.mem_toList.1 now)).2.2⟩

/-- Where no worker has vanished, every callback is attached once and ahead of all signals. -/
theorem Run.announced (run : Run S .empty history l) (there : l.torn = false) :
    Announced (messagesIn history) := by
  induction run with
  | nil => exact .nil
  | @snoc history h l m run step ih =>
    have before := ih (step.there there)
    rw [messagesIn_append, messagesIn_singleton]
    refine List.pairwise_append.2 ⟨before, ?_, fun earlier hearlier later hlater => ?_⟩
    · cases h.message? <;> simp
    · intro attached
      cases later with
      | event e => cases attached
      | attach id callback =>
        cases attached
        obtain ⟨alone, fresh, -⟩ := step.attaches (Option.mem_toList.1 hlater)
        have unknown : ∀ slip ∈ l.accepted, slip.id ≠ earlier.id :=
          fun slip hslip => Nat.ne_of_lt (fresh slip hslip)
        cases earlier with
        | attach id other =>
          rcases run.attached (step.there there) hearlier with ⟨slip, hslip, hid⟩ | ⟨n, opened⟩
          · exact unknown slip hslip hid
          · rw [alone] at opened
            cases opened
        | event e =>
          have unheard := (run.unheard (step.there there) unknown).2
          obtain ⟨k, hk, posts⟩ := List.mem_filterMap.1 hearlier
          have heard : e.signal ∈ signalsIn history e.id :=
            List.mem_filterMap.2 ⟨k, hk, by rw [signal_of_posts posts, if_pos rfl]⟩
          rw [show Message.id (.event e : Message Command) = e.id from rfl] at unheard
          rw [unheard] at heard
          cases heard

end Ledger

namespace Callbacks

variable {α : Type} {cs : Callbacks α} {id : DispatchId} {callback : Callback α}

/-- A callback stays who it is when it is called. -/
theorem find_before {e : Event} (found : (cs.after e).find? id = some callback) :
    ∃ before, cs.find? id = some before ∧ before.number = callback.number ∧
      before.panicsOn = callback.panicsOn := by
  rw [find_after] at found
  split at found
  · rename_i hid
    split at found
    · cases found
    · obtain ⟨before, hbefore, rfl⟩ := Option.map_eq_some_iff.1 found
      exact ⟨before, hid ▸ hbefore, rfl, rfl⟩
  · exact ⟨callback, found, rfl, rfl⟩

/-- Who is registered after a batch was registered in it or before. -/
theorem find_registered {batch : List (Message α)}
    (found : (Message.registered batch cs).find? id = some callback) :
    .attach id callback ∈ batch ∨ cs.find? id = some callback := by
  unfold Message.registered at found
  induction batch generalizing cs with
  | nil => exact .inr found
  | cons m rest ih =>
    rcases ih found with later | before
    · exact .inl (List.mem_cons_of_mem m later)
    · cases m with
      | event e => exact .inr before
      | attach other c =>
        rw [Message.register, find_attach] at before
        split at before
        · rename_i hid
          cases before
          rw [hid]
          exact .inl List.mem_cons_self
        · exact .inr before

end Callbacks

/-- A callback of its own was sent for the dispatch of the call, and it panics at such a signal. -/
def PanicsIn (history : List Happening) (call : Nat × Event) : Prop :=
  ∃ callback, .attach call.2.id callback ∈ sentIn history ∧ callback.number = call.1 ∧
    callback.panicsOn = some call.2.signal.trigger

namespace Session

variable {S : Setup} {s t : Session} {limit : Option Nat}

/-- While delivery goes on, all that it knows and has told stems from what it has taken, and no
callback that it has called panics. -/
structure Attended (s : Session) : Prop where
  unlost : lostIn s.history = []
  waiting : ∀ m ∈ s.mailbox, m ∈ sentIn s.history
  registered : ∀ id callback, s.callbacks.find? id = some callback →
    ∃ first, .attach id first ∈ sentIn s.history ∧ first.number = callback.number ∧
      first.panicsOn = callback.panicsOn
  told : ∀ call ∈ toldIn s.history, ∃ first, .attach call.2.id first ∈ sentIn s.history ∧
    first.panicsOn ≠ some call.2.signal.trigger

theorem sentIn_append (history more : List Happening) :
    sentIn (history ++ more) = sentIn history ++ sentIn more := List.filterMap_append

theorem lostIn_append (history more : List Happening) :
    lostIn (history ++ more) = lostIn history ++ lostIn more := List.filterMap_append

namespace Attended

/-- More is sent, and nothing is told. -/
theorem extend {more : List Happening} (attended : Attended s)
    (history : t.history = s.history ++ more) (mailbox : t.mailbox = s.mailbox ++ sentIn more)
    (callbacks : t.callbacks = s.callbacks) (unlost : lostIn more = [])
    (untold : toldIn more = []) : Attended t := by
  have kept : ∀ m ∈ sentIn s.history, m ∈ sentIn t.history := fun m hm => by
    rw [history, sentIn_append]
    exact List.mem_append_left _ hm
  refine ⟨?_, fun m hm => ?_, fun id callback found => ?_, fun call hcall => ?_⟩
  · rw [history, lostIn_append, attended.unlost, unlost]
    rfl
  · rw [mailbox] at hm
    rcases List.mem_append.1 hm with old | new
    · exact kept m (attended.waiting m old)
    · rw [history, sentIn_append]
      exact List.mem_append_right _ new
  · rw [callbacks] at found
    obtain ⟨first, hfirst, same⟩ := attended.registered id callback found
    exact ⟨first, kept _ hfirst, same⟩
  · rw [history, toldIn_append, untold, List.append_nil] at hcall
    obtain ⟨first, hfirst, unmoved⟩ := attended.told call hcall
    exact ⟨first, kept _ hfirst, unmoved⟩

theorem acts (attended : Attended s) (alive : s.phase = .alive) (acts : Acts s t) :
    Attended t := by
  obtain ⟨deeds, does⟩ := acts
  exact attended.extend does.history does.mailbox does.callbacks (does.unlost alive) does.untold

theorem react (attended : Attended s) (alive : s.phase = .alive) (callback : Nat) (c : Command) :
    Attended (s.react S callback c) := by
  have performed := attended.acts alive (Acts.perform S s c)
  exact performed.extend (history_record _ _) (List.append_nil _).symm rfl rfl rfl

theorem reactions (attended : Attended s) (alive : s.phase = .alive) (callback : Nat)
    (commands : List Command) : Attended (commands.foldl (Session.react S callback) s) := by
  induction commands generalizing s with
  | nil => exact attended
  | cons c rest ih =>
    exact ih (attended.react alive callback c) ((Posts.react S callback s c).phase.trans alive)

/-- A callback that is registered is called, and does not panic. -/
theorem tell (attended : Attended s) {e : Event} {callback : Callback Command}
    (found : s.callbacks.find? e.id = some callback)
    (unmoved : callback.panicsOn ≠ some e.signal.trigger) :
    Attended ({ s with callbacks := s.callbacks.after e }.record (.told callback.number e)) := by
  have same : sentIn ({ s with callbacks := s.callbacks.after e }.record
      (.told callback.number e)).history = sentIn s.history := by
    rw [history_record, sentIn_append]
    exact List.append_nil _
  refine ⟨?_, fun m hm => ?_, fun id later found => ?_, fun call hcall => ?_⟩
  · rw [history_record, lostIn_append]
    exact (List.append_nil _).trans attended.unlost
  · rw [same]
    exact attended.waiting m hm
  · obtain ⟨before, hbefore, number, panics⟩ := Callbacks.find_before found
    obtain ⟨first, hfirst, hnumber, hpanics⟩ := attended.registered id before hbefore
    rw [same]
    exact ⟨first, hfirst, hnumber.trans number, hpanics.trans panics⟩
  · rw [history_record, toldIn_append] at hcall
    rw [same]
    rcases List.mem_append.1 hcall with old | new
    · exact attended.told call old
    · rw [List.mem_singleton.1 new]
      obtain ⟨first, hfirst, -, hpanics⟩ := attended.registered e.id callback found
      exact ⟨first, hfirst, by rw [hpanics]; exact unmoved⟩

/-- Delivery takes a batch, and registers no other callbacks than those in it. -/
theorem taken (attended : Attended s) (S : Setup) : Attended (s.taken S) := by
  have all : ∀ m, m ∈ (Message.nextBatch S.config.coalescing s.mailbox).1 ∨
      m ∈ (Message.nextBatch S.config.coalescing s.mailbox).2 → m ∈ s.mailbox := by
    intro m hm
    unfold Message.nextBatch at hm
    split at hm
    · simpa using hm
    · exact hm.elim List.mem_of_mem_take List.mem_of_mem_drop
  refine ⟨attended.unlost, fun m hm => attended.waiting m (all m (.inr hm)),
    fun id callback found => ?_, attended.told⟩
  rcases Callbacks.find_registered found with now | before
  · exact ⟨callback, attended.waiting _ (all _ (.inl now)), rfl, rfl⟩
  · exact attended.registered id callback before

end Attended

theorem Attended.deliverEvent (attended : Attended s) (alive : s.phase = .alive) (e : Event)
    (going : (s.deliverEvent S e).phase = .alive) : Attended (s.deliverEvent S e) := by
  rcases deliverEvent_outcome S s e with ⟨-, h⟩ | ⟨callback, found, ⟨-, h⟩ | ⟨unmoved, h⟩⟩
  · rw [h]
    exact attended.extend (history_record _ _) (List.append_nil _).symm rfl rfl rfl
  · rw [h] at going
    cases going
  · rw [h]
    exact (attended.tell found unmoved).reactions alive _ _

/-- A batch is delivered to its end, or to the first call that panics. -/
theorem Attended.deliverEvents (attended : Attended s) (alive : s.phase = .alive)
    (events : List Event) :
    (s.deliverEvents S events).phase = .alive ∧ Attended (s.deliverEvents S events) ∨
    ∃ before e rest u callback, events = before ++ e :: rest ∧ s.deliverEvents S before = u ∧
      u.phase = .alive ∧ Attended u ∧ u.callbacks.find? e.id = some callback ∧
      callback.panicsOn = some e.signal.trigger ∧
      s.deliverEvents S events = ({ u with callbacks := u.callbacks.after e }.record
        (.told callback.number e)).panicDelivery := by
  induction events generalizing s with
  | nil => exact .inl ⟨alive, attended⟩
  | cons e rest ih =>
    by_cases going : (s.deliverEvent S e).phase = .alive
    · have next := attended.deliverEvent alive e going
      have step : ∀ events, s.deliverEvents S (e :: events) =
          (s.deliverEvent S e).deliverEvents S events := fun events => by
        rw [Session.deliverEvents]
        exact if_pos going
      rw [step]
      rcases ih next going with done | ⟨before, k, later, u, callback, h, reached, facts⟩
      · exact .inl done
      · exact .inr ⟨e :: before, k, later, u, callback, by rw [h]; rfl, by rw [step, reached],
          facts⟩
    · rcases deliverEvent_outcome S s e with ⟨-, h⟩ | ⟨callback, found, ⟨panics, h⟩ | ⟨-, h⟩⟩
      · rw [h] at going
        exact absurd alive going
      · refine .inr ⟨[], e, rest, s, callback, rfl, rfl, alive, attended, found, panics, ?_⟩
        rw [Session.deliverEvents]
        exact (if_neg going).trans h
      · rw [h, (Posts.reactions S _ _ _).phase] at going
        exact absurd alive going

/-- Each dispatch has one callback, so what is known of it is all there is to know. -/
theorem Attended.tame (attended : Attended s) (booked : Booked S s) (alive : s.phase = .alive) :
    ∀ call ∈ toldIn s.history, ¬ PanicsIn s.history call := by
  have there : s.stage ≠ .dead := fun dead => (booked.2 dead).1 alive
  obtain ⟨⟨l, run, fits⟩, -⟩ := booked
  have untorn : l.torn = false := by
    cases ht : l.torn with
    | false => rfl
    | true => exact absurd (fits.torn.1 ht) there
  have announced := run.announced untorn
  have sent : ∀ m ∈ sentIn s.history, m ∈ messagesIn s.history := by
    intro m hm
    obtain ⟨h, hh, hsent⟩ := List.mem_filterMap.1 hm
    refine List.mem_filterMap.2 ⟨h, hh, ?_⟩
    cases h with
    | sent _ => exact hsent
    | _ => cases hsent
  rintro call hcall ⟨callback, attached, -, panics⟩
  obtain ⟨first, hfirst, unmoved⟩ := attended.told call hcall
  -- Both were attached for the dispatch, so they are one.
  have same : Message.attach call.2.id first = .attach call.2.id callback := by
    by_contra differ
    rcases List.pairwise_iff_getElem.1 announced with h
    obtain ⟨i, hi, hfirst⟩ := List.getElem_of_mem (sent _ hfirst)
    obtain ⟨j, hj, hcallback⟩ := List.getElem_of_mem (sent _ attached)
    rcases Nat.lt_trichotomy i j with hlt | rfl | hgt
    · exact h i j hi hj hlt (by rw [hfirst, hcallback]; rfl)
    · exact differ (hfirst.symm.trans hcallback)
    · exact h j i hj hi hgt (by rw [hfirst, hcallback]; rfl)
  cases same
  exact unmoved panics

/-- Nothing is taken any more, and nothing waits. -/
def Quiet (s : Session) : Prop := s.phase ≠ .alive ∧ s.mailbox = []

end Session

/-- Whether it may happen when delivery has ended. -/
def Happening.isMute : Happening → Bool
  | .told .. | .did .. | .sent _ => false
  | _ => true

namespace Session

variable {S : Setup} {s t u : Session} {limit : Option Nat}

theorem sentIn_mute {more : List Happening} (mute : ∀ h ∈ more, h.isMute = true) :
    sentIn more = [] := by
  refine List.filterMap_eq_nil_iff.2 fun h hh => ?_
  cases h with
  | sent m => cases mute _ hh
  | _ => rfl

theorem toldIn_mute {more : List Happening} (mute : ∀ h ∈ more, h.isMute = true) :
    toldIn more = [] := by
  refine List.filterMap_eq_nil_iff.2 fun h hh => ?_
  cases h with
  | told _ _ => cases mute _ hh
  | _ => rfl

theorem didIn_mute {more : List Happening} (mute : ∀ h ∈ more, h.isMute = true) :
    didIn more = [] := by
  refine List.filterMap_eq_nil_iff.2 fun h hh => ?_
  cases h with
  | did _ _ _ => cases mute _ hh
  | _ => rfl

/-- From the one session to the other nothing was delivered, and nothing can be. -/
structure Mutes (s t : Session) : Prop where
  quiet : t.Quiet
  past : ∃ more, t.history = s.history ++ more ∧ ∀ h ∈ more, h.isMute = true

theorem Mutes.trans (first : Mutes s t) (second : Mutes t u) : Mutes s u := by
  obtain ⟨more, hmore, muted⟩ := first.past
  obtain ⟨rest, hrest, others⟩ := second.past
  refine ⟨second.quiet, more ++ rest, by rw [hrest, hmore, List.append_assoc], fun h hh => ?_⟩
  rcases List.mem_append.1 hh with hh | hh
  · exact muted h hh
  · exact others h hh

theorem Mutes.did (mutes : Mutes s t) : didIn t.history = didIn s.history := by
  obtain ⟨-, more, hmore, muted⟩ := mutes
  rw [hmore, didIn_append, didIn_mute muted, List.append_nil]

theorem Mutes.told (mutes : Mutes s t) : toldIn t.history = toldIn s.history := by
  obtain ⟨-, more, hmore, muted⟩ := mutes
  rw [hmore, toldIn_append, toldIn_mute muted, List.append_nil]

namespace Quiet

theorem refl (quiet : s.Quiet) : Mutes s s :=
  ⟨quiet, [], (List.append_nil _).symm, fun _ h => absurd h List.not_mem_nil⟩

theorem acts (quiet : s.Quiet) (acts : Acts s t) : Mutes s t := by
  obtain ⟨deeds, does⟩ := acts
  have muted : ∀ h ∈ deeds, h.isMute = true := by
    intro h hh
    have deed := does.deed h hh
    cases h with
    | sent m => simp [Happening.isDeed, quiet.1] at deed
    | told _ _ => cases deed
    | did _ _ _ => cases deed
    | _ => rfl
  refine ⟨⟨?_, ?_⟩, deeds, does.history, muted⟩
  · rw [does.phase]
    exact quiet.1
  · rw [does.mailbox, quiet.2, sentIn_mute muted]
    rfl

theorem record (quiet : s.Quiet) {h : Happening} (mute : h.isMute = true) :
    Mutes s (s.record h) :=
  ⟨quiet, [h], history_record s h, fun k hk => by rw [List.mem_singleton.1 hk]; exact mute⟩

theorem logShutdown (quiet : s.Quiet) : Mutes s s.logShutdown :=
  logShutdown_induct (motive := (Mutes s ·)) quiet.refl
    (fun _ mutes => mutes.trans (record mutes.quiet rfl))
    fun _ mutes => mutes.trans (record mutes.quiet rfl)

theorem finishShutdown (quiet : s.Quiet) : Mutes s s.finishShutdown := by
  have gone : Mutes s { s with owner := .gone } := quiet.acts (.frame rfl)
  have logged := gone.trans gone.quiet.logShutdown
  exact logged.trans (record logged.quiet rfl)

theorem next (quiet : s.Quiet) (next : s.next? S limit = some t) : Mutes s t := by
  cases next_cases next with
  | delivered _ waiting => exact absurd quiet.2 waiting
  | woke => exact quiet.acts (.frame rfl)
  | worked _ works =>
    rcases Acts.advance S works with acts | ⟨-, -, -, rfl⟩
    · exact quiet.acts acts
    · exact quiet.finishShutdown

theorem run (S : Setup) (limit : Option Nat) (quiet : s.Quiet) : Mutes s (s.run S limit) := by
  fun_induction Session.run S limit s with
  | case1 s _ => exact quiet.refl
  | case2 s t next ih =>
    have first := quiet.next next
    exact first.trans (ih first.quiet)

theorem ends (quiet : s.Quiet) (limit : Nat) (step : CallerStep) :
    Mutes s (step.ends limit s).1 := by
  rcases ends_cases limit s step with h | h <;> rw [h]
  · exact quiet.logShutdown
  · exact quiet.acts (.frame rfl)

theorem teardown (s : Session) : Mutes s s.teardown :=
  ⟨⟨fun alive => (by cases alive), rfl⟩, [.tornDown], history_record _ _, fun h hh => by
    rw [List.mem_singleton.1 hh]
    rfl⟩

theorem step (S : Setup) (quiet : s.Quiet) (step : CallerStep) : Mutes s (s.step S step).1 := by
  cases begins : step.begins? s with
  | none =>
    rcases acts_of_still (S := S) begins with ⟨acts, -⟩ | rfl
    · exact quiet.acts acts
    · exact teardown s
  | some run =>
    obtain ⟨limit, u⟩ := run
    have begun := quiet.acts (acts_of_begins begins).1
    have ran := begun.trans (begun.quiet.run S (some limit))
    rw [step_of_begins begins]
    exact ran.trans (ran.quiet.ends limit step)

end Quiet

end Session

/-- Whether it is part of the report of a shutdown. -/
def Happening.isReport : Happening → Bool
  | .log record => record.event = .deliveryDied || record.event = .workerDied
  | .note (.shutdownDone _) => true
  | _ => false

namespace Session

variable {S : Setup} {s t u : Session} {limit : Option Nat}

/-- From the one session to the other no shutdown comes to its end. -/
def Unreported (s t : Session) : Prop :=
  ∃ more, t.history = s.history ++ more ∧ ∀ h ∈ more, h.isReport = false

namespace Unreported

theorem refl (s : Session) : Unreported s s :=
  ⟨[], (List.append_nil _).symm, fun _ h => absurd h List.not_mem_nil⟩

theorem trans (first : Unreported s t) (second : Unreported t u) : Unreported s u := by
  obtain ⟨more, hmore, ordinary⟩ := first
  obtain ⟨rest, hrest, others⟩ := second
  refine ⟨more ++ rest, by rw [hrest, hmore, List.append_assoc], fun h hh => ?_⟩
  rcases List.mem_append.1 hh with hh | hh
  · exact ordinary h hh
  · exact others h hh

theorem record (s : Session) {h : Happening} (ordinary : h.isReport = false) :
    Unreported s (s.record h) :=
  ⟨[h], history_record s h, fun k hk => by rw [List.mem_singleton.1 hk]; exact ordinary⟩

theorem acts (acts : Acts s t) : Unreported s t := by
  obtain ⟨deeds, does⟩ := acts
  refine ⟨deeds, does.history, fun h hh => ?_⟩
  have deed := does.deed h hh
  cases h with
  | log record => simpa [Happening.isDeed, Happening.isReport] using deed
  | note n =>
    cases n with
    | shutdownDone time => cases deed
    | _ => rfl
  | _ => rfl

theorem deliverRound (S : Setup) (s : Session) : Unreported s (s.deliverRound S) := by
  have taken : Unreported s (s.taken S) := refl s
  refine taken.trans (lift_parts (carrying_deliverEvents S _ (s.dueEvents S)) refl trans
    fun {u v} carries => ?_)
  cases carries with
  | unclaimed e => exact record u rfl
  | called callback e => exact record u rfl
  | panicked => exact refl u
  | reacted callback c => exact (acts (.perform S u c)).trans (record _ rfl)

end Unreported

/-- No shutdown reports that the worker has died, and one in the background reports that delivery
has when a callback has panicked. -/
structure Reports (history : List Happening) : Prop where
  worker : ∀ record, .log record ∈ history → record.event ≠ .workerDied
  delivery : ∀ past time after, history = past ++ .note (.shutdownDone time) :: after →
    (∃ call ∈ toldIn past, PanicsIn past call) →
      ∃ before, past = before ++ [.log ⟨time, none, .deliveryDied⟩]

theorem Reports.extend {history more : List Happening} (reports : Reports history)
    (worker : ∀ record, .log record ∈ more → record.event ≠ .workerDied)
    (unfinished : ∀ time, .note (.shutdownDone time) ∉ more) : Reports (history ++ more) := by
  refine ⟨fun record hrecord => ?_, fun past time after split => ?_⟩
  · rcases List.mem_append.1 hrecord with old | new
    · exact reports.worker record old
    · exact worker record new
  · rcases List.append_eq_append_iff.1 split with
      ⟨between, rfl, hmore⟩ | ⟨between, hhistory, hafter⟩
    · exact absurd (by rw [hmore]; simp) (unfinished time)
    · cases between with
      | nil => exact absurd (by simp at hafter; rw [← hafter]; simp) (unfinished time)
      | cons h rest =>
        cases hafter
        exact reports.delivery past time rest hhistory

theorem Reports.unreported (reports : Reports s.history) (unreported : Unreported s t) :
    Reports t.history := by
  obtain ⟨more, hmore, ordinary⟩ := unreported
  rw [hmore]
  refine reports.extend (fun record hrecord died => ?_) fun time hmem => ?_
  · have := ordinary _ hrecord
    simp [Happening.isReport, died] at this
  · cases ordinary _ hmem

theorem history_logShutdown (there : s.stage ≠ .dead) :
    s.logShutdown.history = s.history ++
      if s.phase = .alive then [] else [.log ⟨s.clock, none, .deliveryDied⟩] := by
  unfold logShutdown
  cases hs : s.stage with
  | dead => exact absurd hs there
  | _ =>
    dsimp only
    split
    · exact (List.append_nil _).symm
    · exact history_record _ _

theorem logShutdown_of_alive (there : s.stage ≠ .dead) (alive : s.phase = .alive) :
    s.logShutdown = s := by
  unfold logShutdown
  cases hs : s.stage with
  | dead => exact absurd hs there
  | _ => exact if_pos alive

/-- A shutdown in the background that comes to its end is written down, and else changes no more
than who holds the dispatcher. -/
theorem finishShutdown_of_alive (there : s.stage ≠ .dead) (alive : s.phase = .alive) :
    s.finishShutdown = { s with owner := .gone }.note (.shutdownDone s.clock) := by
  rw [finishShutdown, logShutdown_of_alive (s := { s with owner := .gone }) there alive]

/-- What a shutdown that waits reports. -/
theorem Reports.logShutdown (reports : Reports s.history) (there : s.stage ≠ .dead) :
    Reports s.logShutdown.history := by
  rw [history_logShutdown there]
  refine reports.extend (fun record hrecord => ?_) fun time hmem => ?_
  · split at hrecord
    · cases hrecord
    · cases List.mem_singleton.1 hrecord
      exact fun h => by cases h
  · split at hmem
    · cases hmem
    · cases List.mem_singleton.1 hmem

/-- What a shutdown in the background reports: delivery goes on unless a callback has panicked. -/
theorem Reports.finishShutdown (reports : Reports s.history) (there : s.stage ≠ .dead)
    (tame : s.phase = .alive → ∀ call ∈ toldIn s.history, ¬ PanicsIn s.history call) :
    Reports s.finishShutdown.history := by
  have logged : Reports { s with owner := .gone }.logShutdown.history :=
    reports.logShutdown (s := { s with owner := .gone }) there
  have hhistory : s.finishShutdown.history =
      { s with owner := .gone }.logShutdown.history ++ [.note (.shutdownDone s.clock)] :=
    history_record _ _
  rw [hhistory]
  refine ⟨fun record hrecord => ?_, fun past time after split panicked => ?_⟩
  · rcases List.mem_append.1 hrecord with old | new
    · exact logged.worker record old
    · cases List.mem_singleton.1 new
  · rcases List.eq_nil_or_concat after with rfl | ⟨rest, final, rfl⟩
    · obtain ⟨rfl, htime⟩ := List.append_inj' split rfl
      cases htime
      rw [history_logShutdown (s := { s with owner := .gone }) there] at panicked ⊢
      by_cases alive : s.phase = .alive
      · obtain ⟨call, hcall, panics⟩ := panicked
        rw [if_pos alive, List.append_nil] at hcall panics
        exact absurd panics (tame alive call hcall)
      · exact ⟨s.history, by rw [if_neg alive]; rfl⟩
    · rw [List.concat_eq_append, ← List.cons_append, ← List.append_assoc] at split
      exact logged.delivery past time rest (List.append_inj' split rfl).1 panicked

theorem Booked.begins {step : CallerStep} {limit : Nat} (booked : Booked S s)
    (begins : step.begins? s = some (limit, u)) : Booked S u := by
  cases begins_cases begins with
  | sleep => exact booked.frame rfl rfl id
  | shutdown => exact (booked.signalStop .gone (by decide)).frame rfl rfl id

/-- What holds of delivery and of the reports of shutdowns at any time. -/
structure Orderly (S : Setup) (s : Session) : Prop where
  booked : Booked S s
  attended : s.phase = .alive → Attended s
  empty : s.phase ≠ .alive → s.mailbox = []
  reports : Reports s.history

namespace Orderly

theorem tame (orderly : Orderly S s) (alive : s.phase = .alive) :
    ∀ call ∈ toldIn s.history, ¬ PanicsIn s.history call :=
  (orderly.attended alive).tame orderly.booked alive

theorem acts (orderly : Orderly S s) (acts : Acts s t) (booked : Booked S t) : Orderly S t := by
  have phase := acts.phase
  refine ⟨booked, fun alive => ?_, fun dead => ?_, orderly.reports.unreported (.acts acts)⟩
  · rw [phase] at alive
    exact (orderly.attended alive).acts alive acts
  · rw [phase] at dead
    exact (Quiet.acts ⟨dead, orderly.empty dead⟩ acts).quiet.2

theorem undead (orderly : Orderly S s) (there : s.alive = true) : s.stage ≠ .dead := by
  intro dead
  rw [(orderly.booked.2 dead).2] at there
  cases there

theorem logShutdown (orderly : Orderly S s) (undead : s.stage ≠ .dead)
    (booked : Booked S s.logShutdown) : Orderly S s.logShutdown := by
  by_cases alive : s.phase = .alive
  · rw [logShutdown_of_alive undead alive]
    exact orderly
  · have mutes := Quiet.logShutdown ⟨alive, orderly.empty alive⟩
    exact ⟨booked, fun going => absurd going mutes.quiet.1, fun _ => mutes.quiet.2,
      orderly.reports.logShutdown undead⟩

theorem finishShutdown (orderly : Orderly S s) (undead : s.stage ≠ .dead)
    (booked : Booked S s.finishShutdown) : Orderly S s.finishShutdown := by
  have reports := orderly.reports.finishShutdown undead orderly.tame
  by_cases alive : s.phase = .alive
  · rw [finishShutdown_of_alive undead alive] at booked reports ⊢
    refine ⟨booked, fun _ => ?_, fun dead => absurd alive dead, reports⟩
    exact (orderly.attended alive).extend (history_record _ _) (List.append_nil _).symm rfl rfl rfl
  · have mutes := Quiet.finishShutdown ⟨alive, orderly.empty alive⟩
    exact ⟨booked, fun going => absurd going mutes.quiet.1, fun _ => mutes.quiet.2, reports⟩

theorem deliverRound (orderly : Orderly S s) (waiting : s.mailbox ≠ []) :
    Orderly S (s.deliverRound S) := by
  have alive : s.phase = .alive := by
    by_contra dead
    exact waiting (orderly.empty dead)
  have delivered := ((orderly.attended alive).taken S).deliverEvents (S := S) alive (s.dueEvents S)
  refine ⟨orderly.booked.deliverRound, fun going => ?_, fun dead => ?_,
    orderly.reports.unreported (.deliverRound S s)⟩
  · rcases delivered with ⟨-, attended⟩ | ⟨before, e, rest, u, callback, -, -, -, -, -, -, h⟩
    · exact attended
    · rw [deliverRound_eq, h] at going
      cases going
  · rcases delivered with ⟨going, -⟩ | ⟨before, e, rest, u, callback, -, -, -, -, -, -, h⟩
    · exact absurd going dead
    · rw [deliverRound_eq, h]
      rfl

theorem next (orderly : Orderly S s) (there : s.alive = true) (next : s.next? S limit = some t) :
    Orderly S t := by
  have booked := orderly.booked.next next
  cases next_cases next with
  | delivered _ waiting => exact orderly.deliverRound waiting
  | woke => exact orderly.acts (.frame rfl) booked
  | worked _ works =>
    rcases Acts.advance S works with acts | ⟨-, -, -, rfl⟩
    · exact orderly.acts acts booked
    · exact orderly.finishShutdown (orderly.undead there) booked

theorem run (limit : Option Nat) (orderly : Orderly S s) (there : s.alive = true) :
    Orderly S (s.run S limit) := by
  fun_induction Session.run S limit s with
  | case1 s _ => exact orderly
  | case2 s t next ih =>
    exact ih (orderly.next there next) ((follows_next next).alive.trans there)

/-- To give way keeps the order. -/
theorem begins {step : CallerStep} {limit : Nat} (orderly : Orderly S s)
    (begins : step.begins? s = some (limit, u)) : Orderly S u :=
  orderly.acts (acts_of_begins begins).1 (orderly.booked.begins begins)

theorem ends {limit : Nat} {step : CallerStep} (orderly : Orderly S s) (there : s.alive = true)
    (booked : Booked S (step.ends limit s).1) : Orderly S (step.ends limit s).1 := by
  rcases ends_cases limit s step with h | h <;> rw [h] at booked ⊢
  · exact orderly.logShutdown (orderly.undead there) booked
  · exact orderly.acts (.frame rfl) booked

theorem teardown (orderly : Orderly S s) (booked : Booked S s.teardown) :
    Orderly S s.teardown := by
  have recorded : Unreported s s.teardown := .record s rfl
  exact ⟨booked, fun alive => (by cases alive), fun _ => rfl, orderly.reports.unreported recorded⟩

theorem step (orderly : Orderly S s) (step : CallerStep) : Orderly S (s.step S step).1 := by
  have booked := orderly.booked.step step
  cases begins : step.begins? s with
  | none =>
    rcases acts_of_still (S := S) begins with ⟨acts, -⟩ | rfl
    · exact orderly.acts acts booked
    · exact orderly.teardown booked
  | some run =>
    obtain ⟨limit, u⟩ := run
    obtain ⟨acts, there⟩ := acts_of_begins begins
    have alive : (u.run S (some limit)).alive = true :=
      ((follows_run S _ u).alive.trans acts.alive).trans there
    rw [step_of_begins begins] at booked ⊢
    exact ((orderly.begins begins).run _ (acts.alive.trans there)).ends alive booked

end Orderly

theorem orderly_start (S : Setup) : Orderly S start where
  booked := booked_start
  attended _ :=
    { unlost := rfl
      waiting := fun _ h => absurd h List.not_mem_nil
      registered := fun _ _ h => by cases h
      told := fun _ h => absurd h List.not_mem_nil }
  empty _ := rfl
  reports :=
    { worker := fun _ h => absurd h List.not_mem_nil
      delivery := fun past _ _ h => by cases past <;> cases h }

/-- Every session that a script leads to is orderly. -/
theorem orderly_runScript (S : Setup) (steps : List CallerStep) :
    Orderly S (start.runScript S steps) := by
  unfold runScript
  induction steps using List.reverseRecOn with
  | nil => exact orderly_start S
  | append_singleton steps step ih =>
    rw [List.foldl_append]
    exact ih.step step

end Session
end SerialDispatch
