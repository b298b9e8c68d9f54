import Mathlib.Data.List.Nodup
import Mathlib.Data.List.Perm.Basic
import SerialDispatch.Proofs.Dispatcher.Occasions
import SerialDispatch.Proofs.Dispatcher.Passing

/-!
# Whom delivery has still to tell

The callbacks that delivery holds and those that wait for it in the mailbox are a session's roster.
As long as delivery goes on, the roster is made up, at every instant, of the dispatches whose
terminal signal has not been delivered yet, each of them once: `Instant.Occurs.roster`. So delivery
finds a callback for every terminal signal.
-/
namespace SerialDispatch

namespace Message

variable {α : Type}

/-- The dispatch that a callback is attached for, and the number of the callback. -/
def address? : Message α → Option (DispatchId × Nat)
  | .attach id callback => some (id, callback.number)
  | .event _ => none

/-- The dispatch whose terminal signal it is. -/
def ended? : Message α → Option DispatchId
  | .attach .. => none
  | .event e => if e.signal.isFinished then some e.id else none

end Message

/-- The dispatches whose terminal signals are among the events. -/
def endedBy (events : List Event) : List DispatchId :=
  (events.filter fun e => e.signal.isFinished).map Event.id

/-- The dispatches whose terminal signals were delivered. -/
def concludedIn (history : List Happening) : List DispatchId :=
  endedBy ((toldIn history).map Prod.snd)

/-- The dispatches accepted whose terminal signals were not delivered, each with the number of its
callback. -/
def unconcludedIn (history : List Happening) : List (DispatchId × Nat) :=
  ((acceptedIn history).filter fun slip => slip.id ∉ concludedIn history).map Slip.address

/-- Whose callbacks delivery holds, and whose wait to be attached. -/
def Session.roster (s : Session) : List (DispatchId × Nat) :=
  s.callbacks.map (fun c => (c.1, c.2.number)) ++ s.mailbox.filterMap Message.address?

@[simp] theorem endedBy_append (first second : List Event) :
    endedBy (first ++ second) = endedBy first ++ endedBy second := by
  simp [endedBy]

theorem endedBy_cons (e : Event) (rest : List Event) :
    endedBy (e :: rest) = endedBy [e] ++ endedBy rest := endedBy_append [e] rest

theorem filterMap_ended {α : Type} (messages : List (Message α)) :
    messages.filterMap Message.ended? = endedBy (messages.filterMap Message.event?) := by
  induction messages with
  | nil => rfl
  | cons m rest ih =>
    cases m with
    | attach id callback => exact ih
    | event e =>
      cases hf : e.signal.isFinished <;> simp [Message.ended?, Message.event?, endedBy, hf, ih]

/-- Coalescing leaves all terminal signals. -/
theorem endedBy_events {α : Type} (coalescing : Bool) (batch : List (Message α)) :
    endedBy (Message.events coalescing batch) = batch.filterMap Message.ended? := by
  rw [filterMap_ended]
  cases coalescing with
  | false => rfl
  | true =>
    exact congrArg (List.map Event.id)
      ((Event.thinned_coalesce _).filter_eq fun a b superseded => superseded.unfinished)

theorem events_sublist {α : Type} (coalescing : Bool) (batch : List (Message α)) :
    (Message.events coalescing batch).Sublist (batch.filterMap Message.event?) := by
  cases coalescing with
  | false => exact List.Sublist.refl _
  | true => exact (Event.thinned_coalesce _).sublist

namespace Ledger

variable {S : Setup} {l m : Ledger} {h : Happening} {history : List Happening}

/-- Whose callback was attached: who was accepted, and who is about to be submitted. -/
def addressed (l : Ledger) : List (DispatchId × Nat) :=
  l.accepted.map Slip.address ++ l.opened.toList

/-- The dispatches that are over. -/
def completed (l : Ledger) : List DispatchId := l.settled.map fun entry => entry.1.id

/-- What a message says of callbacks attached and of dispatches that are over. -/
theorem Step.mail (step : l.Step S h m) (there : m.torn = false) :
    m.addressed = l.addressed ++ h.message?.toList.filterMap Message.address? ∧
      m.completed = l.completed ++ h.message?.toList.filterMap Message.ended? := by
  have unsent : h.message? = none → m.addressed = l.addressed → m.completed = l.completed →
      m.addressed = l.addressed ++ h.message?.toList.filterMap Message.address? ∧
        m.completed = l.completed ++ h.message?.toList.filterMap Message.ended? := by
    intro none addressed completed
    simp [none, addressed, completed]
  have unfinished : ∀ {e : Event}, h.message? = some (.event e) → e.signal.isFinished = false →
      m.addressed = l.addressed → m.completed = l.completed →
      m.addressed = l.addressed ++ h.message?.toList.filterMap Message.address? ∧
        m.completed = l.completed ++ h.message?.toList.filterMap Message.ended? := by
    intro e posts unfinished addressed completed
    simp [posts, addressed, completed, Message.address?, Message.ended?, unfinished]
  have unmoved : m.accepted = l.accepted → m.opened = l.opened → m.addressed = l.addressed := by
    intro accepted opened
    rw [addressed, addressed, accepted, opened]
  have accepted := step.accepted
  cases step with
  | silent silent =>
    refine unsent ?_ rfl rfl
    cases h <;> first | rfl | cases silent
  | attached posts alone fresh =>
    simp [posts, addressed, completed, alone, Message.address?, Message.ended?, Ledger.accepted,
      roll]
  | submitted slip time opened going _ =>
    refine unsent rfl ?_ rfl
    simp [addressed, opened, accepted, Happening.accepted?, Slip.address]
  | refused opened torn =>
    rw [show l.torn = false from there] at torn
    cases torn
  | taken time free first going =>
    exact unsent rfl (unmoved (accepted.trans (by simp [Happening.accepted?])) rfl) rfl
  | discarded time free first stopping =>
    exact unsent rfl (unmoved (accepted.trans (by simp [Happening.accepted?])) rfl) rfl
  | worked desk alone moves =>
    cases moves with
    | emitted x posts ordinary =>
      have same := accepted
      rw [(no_milestone_of_message posts).1] at same
      exact unfinished posts ordinary (unmoved (by simpa using same) rfl) rfl
    | _ => exact unsent rfl (unmoved (by simpa [Happening.accepted?] using accepted) rfl) rfl
  | finished desk posts =>
    have same := accepted
    rw [(no_milestone_of_message posts).1] at same
    refine ⟨?_, ?_⟩
    · rw [unmoved (by simpa using same) rfl]
      simp [posts, Message.address?]
    · simp [completed, posts, Message.ended?, Signal.isFinished, Slip.id]
  | through late posts begun ordinary =>
    have same := accepted
    rw [(no_milestone_of_message posts).1] at same
    exact unfinished posts ordinary (unmoved (by simpa using same) rfl) rfl
  | _ => exact unsent rfl rfl rfl

/-- The callbacks attached are those of the dispatches accepted, and the terminal signals are those
of the dispatches that are over, in order. -/
theorem Run.mail (run : Run S .empty history l) (there : l.torn = false) :
    (messagesIn history).filterMap Message.address? = l.addressed ∧
      (messagesIn history).filterMap Message.ended? = l.completed := by
  induction run with
  | nil => exact ⟨rfl, rfl⟩
  | snoc run step ih =>
    obtain ⟨addressed, completed⟩ := ih (step.there there)
    obtain ⟨nowAddressed, nowCompleted⟩ := step.mail there
    rw [messagesIn_append, messagesIn_singleton, List.filterMap_append, List.filterMap_append,
      addressed, completed]
    exact ⟨nowAddressed.symm, nowCompleted.symm⟩

theorem Ordered.nodup (ordered : l.Ordered) : (l.accepted.map Slip.id).Nodup := by
  rw [List.Nodup, List.pairwise_map]
  exact ordered.ascending.imp fun h => Nat.ne_of_lt h

theorem completed_sublist (l : Ledger) : l.completed.Sublist (l.accepted.map Slip.id) := by
  have whole : l.accepted.map Slip.id =
      l.completed ++ (l.desk.toList.map (fun d => d.1.id) ++ l.waiting.map Slip.id) := by
    simp [completed, Ledger.accepted, roll, Function.comp_def]
  rw [whole]
  exact List.sublist_append_left _ _

end Ledger

namespace Callbacks

variable {α : Type} {cs : Callbacks α}

theorem nodup_attach (nodup : (cs.map Prod.fst).Nodup) (id : DispatchId) (callback : Callback α) :
    ((cs.attach id callback).map Prod.fst).Nodup := by
  rw [attach, List.map_cons, List.nodup_cons]
  refine ⟨fun hmem => ?_, nodup.sublist (List.filter_sublist.map _)⟩
  obtain ⟨pair, hpair, hid⟩ := List.mem_map.1 hmem
  simpa [hid] using (List.mem_filter.1 hpair).2

theorem nodup_after (nodup : (cs.map Prod.fst).Nodup) (e : Event) :
    ((cs.after e).map Prod.fst).Nodup := by
  unfold after
  split
  · exact nodup.sublist (List.filter_sublist.map _)
  · exact nodup_attach nodup _ _
  · exact nodup

theorem nodup_registered (nodup : (cs.map Prod.fst).Nodup) (batch : List (Message α)) :
    ((Message.registered batch cs).map Prod.fst).Nodup := by
  unfold Message.registered
  induction batch generalizing cs with
  | nil => exact nodup
  | cons m rest ih =>
    refine ih ?_
    cases m with
    | attach id callback => exact nodup_attach nodup id callback
    | event e => exact nodup

/-- Where every dispatch has one callback, that is the one that is found. -/
theorem mem_iff_number (nodup : (cs.map Prod.fst).Nodup) (id : DispatchId) (n : Nat) :
    (id, n) ∈ cs.map (fun c => (c.1, c.2.number)) ↔ cs.number? id = some n := by
  unfold number? find?
  induction cs with
  | nil => simp
  | cons pair rest ih =>
    obtain ⟨key, callback⟩ := pair
    rw [List.map_cons, List.nodup_cons] at nodup
    rw [List.map_cons, List.mem_cons, ih nodup.2, List.lookup_cons]
    by_cases hkey : id = key
    · subst hkey
      have absent : List.lookup id rest = Option.none :=
        List.lookup_eq_none_iff.2 fun other hother => by
          have hne : other.1 ≠ id := fun heq => nodup.1 (List.mem_map.2 ⟨other, hother, heq⟩)
          simpa using hne.symm
      simp [absent, eq_comm]
    · simp [hkey, beq_eq_false_iff_ne.2 hkey]

end Callbacks

namespace Session

variable {S : Setup} {s t : Session} {due : List Event} {passed : List (Message Command)}

/-- Delivery has taken these messages from its mailbox, and has these events of them still to bring.
It knows a callback for every dispatch whose callback it has taken and whose terminal signal it has
not delivered. -/
structure Musters (s : Session) (due : List Event) (passed : List (Message Command)) : Prop where
  sent : messagesIn s.history = passed ++ s.mailbox
  ended : passed.filterMap Message.ended? = concludedIn s.history ++ endedBy due
  held : ∀ id n, s.callbacks.number? id = some n ↔
    (id, n) ∈ passed.filterMap Message.address? ∧ id ∉ concludedIn s.history
  keys : (s.callbacks.map Prod.fst).Nodup
  due : due.Sublist (passed.filterMap Message.event?)
  told : ∀ call ∈ toldIn s.history, .event call.2 ∈ passed ∧
    (call.2.id, call.1) ∈ passed.filterMap Message.address?

/-- What the ledger says of the messages that were sent while delivery goes on. -/
structure Mailed (history : List Happening) : Prop where
  announced : Announced (messagesIn history)
  addresses : (messagesIn history).filterMap Message.address? =
    (acceptedIn history).map Slip.address
  once : ((messagesIn history).filterMap Message.ended?).Nodup
  known : ∀ id ∈ (messagesIn history).filterMap Message.ended?, ∃ slip ∈ acceptedIn history,
    slip.id = id
  distinct : ((acceptedIn history).map Slip.id).Nodup

theorem Booked.mailed (booked : Booked S s) (alive : s.phase = .alive) : Mailed s.history := by
  obtain ⟨⟨l, run, fits⟩, dead⟩ := booked
  have untorn : l.torn = false := by
    cases torn : l.torn with
    | false => rfl
    | true => exact absurd alive (dead (fits.torn.1 torn)).1
  obtain ⟨addressed, completed⟩ := run.mail untorn
  have accepted := run.accepted_of_empty
  have distinct := run.ordered.nodup
  refine ⟨run.announced untorn, ?_, ?_, fun id hid => ?_, by rwa [accepted] at distinct⟩
  · have opened : l.opened = none := fits.opened
    rw [addressed, Ledger.addressed, opened, accepted]
    exact List.append_nil _
  · rw [completed]
    exact distinct.sublist l.completed_sublist
  · rw [completed] at hid
    obtain ⟨slip, hslip, rfl⟩ := List.mem_map.1 (l.completed_sublist.subset hid)
    exact ⟨slip, accepted ▸ hslip, rfl⟩

/-- No callback is attached for a dispatch whose terminal signal was sent before. -/
theorem Mailed.unended {earlier later : List (Message Command)} {id : DispatchId} {n : Nat}
    (announced : Announced (earlier ++ later))
    (attached : (id, n) ∈ later.filterMap Message.address?) :
    id ∉ earlier.filterMap Message.ended? := by
  intro ended
  obtain ⟨first, hfirst, hended⟩ := List.mem_filterMap.1 ended
  obtain ⟨second, hsecond, haddress⟩ := List.mem_filterMap.1 attached
  have apart := (List.pairwise_append.1 announced).2.2 first hfirst second hsecond
  cases first with
  | attach _ _ => cases hended
  | event e =>
    cases second with
    | event _ => cases haddress
    | attach other callback =>
      cases haddress
      simp only [Message.ended?] at hended
      split at hended
      · cases hended
        exact apart rfl
      · cases hended

theorem endedBy_toldIn (call : Nat × Event) (history : List Happening) :
    concludedIn (history ++ [.told call.1 call.2]) = concludedIn history ++ endedBy [call.2] := by
  rw [concludedIn, toldIn_append, List.map_append, endedBy_append]
  rfl

namespace Musters

/-- More is sent, and nothing is told. -/
theorem extend (musters : Musters s due passed) {sent : List (Message Command)}
    (messages : messagesIn t.history = messagesIn s.history ++ sent)
    (mailbox : t.mailbox = s.mailbox ++ sent) (callbacks : t.callbacks = s.callbacks)
    (told : toldIn t.history = toldIn s.history) : Musters t due passed := by
  have concluded : concludedIn t.history = concludedIn s.history := by
    rw [concludedIn, told]
    rfl
  refine ⟨?_, ?_, ?_, ?_, musters.due, told ▸ musters.told⟩
  · rw [messages, mailbox, musters.sent, List.append_assoc]
  · rw [concluded]
    exact musters.ended
  · rw [concluded, callbacks]
    exact musters.held
  · rw [callbacks]
    exact musters.keys

theorem posts (musters : Musters s due passed) (alive : s.phase = .alive) (posts : Posts s t) :
    Musters t due passed := by
  obtain ⟨sent, messages, mailbox⟩ := posts.mail alive
  exact musters.extend messages mailbox posts.callbacks posts.told

theorem acts (musters : Musters s due passed) (alive : s.phase = .alive) (acts : Acts s t) :
    Musters t due passed := by
  obtain ⟨deeds, does⟩ := acts
  refine musters.extend ?_ does.mailbox does.callbacks ?_
  · rw [does.history, messagesIn_append, does.messages alive]
  · rw [does.history, toldIn_append, does.untold, List.append_nil]

/-- Registrations that are taken from the mailbox take effect. -/
theorem held_registered {cs : Callbacks Command} {ended : List DispatchId}
    (held : ∀ id n, cs.number? id = some n ↔
      (id, n) ∈ passed.filterMap Message.address? ∧ id ∉ ended)
    (batch : List (Message Command))
    (distinct : (((passed ++ batch).filterMap Message.address?).map Prod.fst).Nodup)
    (fresh : ∀ id n, (id, n) ∈ batch.filterMap Message.address? → id ∉ ended) (id : DispatchId)
    (n : Nat) : (Message.registered batch cs).number? id = some n ↔
      (id, n) ∈ (passed ++ batch).filterMap Message.address? ∧ id ∉ ended := by
  induction batch generalizing cs passed with
  | nil => rw [List.append_nil]; exact held id n
  | cons m rest ih =>
    have whole : passed ++ m :: rest = passed ++ [m] ++ rest := by simp
    rw [whole] at distinct ⊢
    refine @ih (passed ++ [m]) (Message.register cs m) (fun id n => ?_) distinct
      fun id n hid => fresh id n ?_
    · cases m with
      | event e => simpa [Message.register, Message.address?] using held id n
      | attach key callback =>
        rw [Message.register, Callbacks.number_attach, List.filterMap_append, List.mem_append]
        by_cases hid : id = key
        · subst hid
          have unknown : ∀ n, (id, n) ∉ passed.filterMap Message.address? := by
            intro n hn
            rw [List.filterMap_append, List.map_append, List.filterMap_append, List.map_append]
              at distinct
            exact (List.nodup_append.1 (List.nodup_append.1 distinct).1).2.2 id
              (List.mem_map_of_mem hn) id (by simp [Message.address?]) rfl
          have open_ : id ∉ ended :=
            fresh id callback.number (by simp [Message.address?])
          have here : [Message.attach id callback].filterMap Message.address? =
              [(id, callback.number)] := rfl
          rw [if_pos rfl, here, List.mem_singleton]
          constructor
          · intro found
            cases found
            exact ⟨.inr rfl, open_⟩
          · rintro ⟨early | now, -⟩
            · exact absurd early (unknown n)
            · cases now
              rfl
        · simpa [hid, Message.address?] using held id n
    · exact ((List.sublist_cons_self m rest).filterMap _).subset hid

/-- Delivery takes a batch. -/
theorem taken (musters : Musters s [] passed) (mailed : Mailed s.history) (S : Setup) :
    Musters (s.taken S) (s.dueEvents S)
      (passed ++ (Message.nextBatch S.config.coalescing s.mailbox).1) := by
  have whole := nextBatch_append S.config.coalescing s.mailbox
  have sent := musters.sent
  have ended := musters.ended
  rw [show endedBy [] = [] from rfl, List.append_nil] at ended
  rw [← whole, ← List.append_assoc] at sent
  have announced := mailed.announced
  have distinct := mailed.distinct
  have addresses := congrArg (List.map Prod.fst) mailed.addresses
  rw [List.map_map, show Prod.fst ∘ Slip.address = Slip.id from rfl] at addresses
  rw [← addresses, sent, List.filterMap_append, List.map_append] at distinct
  rw [sent] at announced
  refine ⟨sent, ?_, ?_, Callbacks.nodup_registered musters.keys _, ?_, fun call told => ?_⟩
  · rw [List.filterMap_append, ended]
    exact congrArg (_ ++ ·) (endedBy_events _ _).symm
  · refine held_registered musters.held _ (List.nodup_append.1 distinct).1 fun id n attached => ?_
    have open_ := Mailed.unended (List.pairwise_append.1 announced).1 attached
    rwa [ended] at open_
  · rw [List.filterMap_append]
    exact (events_sublist _ _).trans (List.sublist_append_right _ _)
  · obtain ⟨event, address⟩ := musters.told call told
    rw [List.filterMap_append]
    exact ⟨List.mem_append_left _ event, List.mem_append_left _ address⟩

/-- A callback is called. -/
theorem call {e : Event} {callback : Callback Command} (musters : Musters s (e :: due) passed)
    (found : s.callbacks.find? e.id = some callback) :
    Musters (s.call callback e) due passed := by
  have concluded : concludedIn (s.call callback e).history =
      concludedIn s.history ++ endedBy [e] := by
    rw [← endedBy_toldIn (callback.number, e) s.history]
    exact congrArg concludedIn (history_record _ _)
  have passes : .event e ∈ passed := by
    obtain ⟨m, hm, he⟩ := List.mem_filterMap.1 (musters.due.subset List.mem_cons_self)
    cases m with
    | attach id callback => cases he
    | event other => cases he; exact hm
  refine ⟨?_, ?_, fun id n => ?_, Callbacks.nodup_after musters.keys e,
    (List.sublist_cons_self e due).trans musters.due, fun call told => ?_⟩
  · have same : messagesIn (s.call callback e).history = messagesIn s.history := by
      rw [Session.call, history_record, messagesIn_append]
      exact List.append_nil _
    rw [same]
    exact musters.sent
  · rw [musters.ended, concluded, endedBy_cons, List.append_assoc]
  · rw [concluded]
    show (s.callbacks.after e).number? id = some n ↔ _
    rw [Callbacks.number_after id found, List.mem_append, not_or, ← and_assoc, ← musters.held id n]
    cases hf : e.signal.isFinished with
    | false => simp [endedBy, hf]
    | true =>
      by_cases hid : id = e.id
      · simp [endedBy, hf, hid]
      · simp [endedBy, hf, hid]
  · rw [Session.call, history_record, toldIn_append] at told
    rcases List.mem_append.1 told with old | new
    · exact musters.told call old
    · rw [show call = (callback.number, e) from List.mem_singleton.1 new]
      exact ⟨passes, ((musters.held e.id callback.number).1 (by
        rw [Callbacks.number?, found]
        rfl)).1⟩

/-- Delivery knows a callback for a terminal signal. -/
theorem claimed {e : Event} (musters : Musters s (e :: due) passed) (mailed : Mailed s.history)
    (finished : e.signal.isFinished = true) : s.callbacks.find? e.id ≠ none := by
  intro unknown
  have ended := musters.ended
  have here : endedBy (e :: due) = e.id :: endedBy due := by simp [endedBy, finished]
  rw [here] at ended
  have once := mailed.once
  rw [musters.sent, List.filterMap_append] at once
  have open_ : e.id ∉ concludedIn s.history := by
    intro closed
    have distinct := (List.nodup_append.1 once).1
    rw [ended] at distinct
    exact (List.nodup_append.1 distinct).2.2 _ closed _ List.mem_cons_self rfl
  have past : e.id ∈ passed.filterMap Message.ended? := by
    rw [ended]
    simp
  obtain ⟨slip, hslip, hid⟩ := mailed.known e.id (by
    rw [musters.sent, List.filterMap_append]
    exact List.mem_append_left _ past)
  have attached : slip.address ∈ (messagesIn s.history).filterMap Message.address? := by
    rw [mailed.addresses]
    exact List.mem_map_of_mem hslip
  have announced := mailed.announced
  rw [musters.sent] at attached announced
  rw [List.filterMap_append, Slip.address, hid] at attached
  rcases List.mem_append.1 attached with early | late
  · have known := (musters.held e.id slip.callback).2 ⟨early, open_⟩
    rw [Callbacks.number?, unknown] at known
    cases known
  · exact Mailed.unended announced late past

/-- The roster is made up of the dispatches whose terminal signal has not been delivered. -/
theorem perm (musters : Musters s due passed) (mailed : Mailed s.history) :
    s.roster.Perm (unconcludedIn s.history) := by
  have addresses := mailed.addresses
  have announced := mailed.announced
  rw [musters.sent] at addresses announced
  rw [List.filterMap_append] at addresses
  have ids : ((passed.filterMap Message.address? ++ s.mailbox.filterMap Message.address?).map
      Prod.fst).Nodup := by
    rw [addresses, List.map_map]
    exact mailed.distinct
  have nodup := List.Nodup.of_map Prod.fst ids
  have mem : ∀ id n, (id, n) ∈ s.roster ↔ (id, n) ∈ unconcludedIn s.history := by
    intro id n
    have waits : (id, n) ∈ s.mailbox.filterMap Message.address? →
        id ∉ concludedIn s.history := by
      intro attached concluded
      refine Mailed.unended announced attached ?_
      rw [musters.ended]
      exact List.mem_append_left _ concluded
    have accepted : (id, n) ∈ unconcludedIn s.history ↔
        (id, n) ∈ (acceptedIn s.history).map Slip.address ∧ id ∉ concludedIn s.history := by
      simp only [unconcludedIn, List.mem_map, List.mem_filter, decide_eq_true_eq, Slip.address,
        Prod.mk.injEq]
      constructor
      · rintro ⟨slip, ⟨hslip, open_⟩, rfl, rfl⟩
        exact ⟨⟨slip, hslip, rfl, rfl⟩, open_⟩
      · rintro ⟨⟨slip, hslip, rfl, rfl⟩, open_⟩
        exact ⟨slip, ⟨hslip, open_⟩, rfl, rfl⟩
    rw [accepted, ← addresses, List.mem_append, roster, List.mem_append,
      Callbacks.mem_iff_number musters.keys, musters.held]
    constructor
    · rintro (⟨early, open_⟩ | late)
      · exact ⟨.inl early, open_⟩
      · exact ⟨.inr late, waits late⟩
    · rintro ⟨early | late, open_⟩
      · exact .inl ⟨early, open_⟩
      · exact .inr late
  refine (List.perm_ext_iff_of_nodup ?_ ?_).2 fun pair => mem pair.1 pair.2
  · refine List.nodup_append.2 ⟨?_, (List.nodup_append.1 nodup).2.1, fun a ha b hb hab => ?_⟩
    · refine List.Nodup.of_map Prod.fst ?_
      rw [List.map_map]
      exact musters.keys
    · obtain ⟨id, n⟩ := a
      subst hab
      have early := ((musters.held id n).1 ((Callbacks.mem_iff_number musters.keys id n).1 ha)).1
      exact (List.nodup_append.1 nodup).2.2 _ early _ hb rfl
  · refine List.Nodup.of_map Prod.fst ?_
    rw [unconcludedIn, List.map_map]
    exact mailed.distinct.sublist (List.filter_sublist.map _)

end Musters
end Session
end SerialDispatch
