import SerialDispatch.Proofs.Dispatcher.Blocks
import SerialDispatch.Proofs.Dispatcher.Survival
import SerialDispatch.Proofs.Dispatcher.Truncation

/-!
# Whose terminal signal is delivered

The callbacks of all dispatches are called by one delivery, in the order in which the worker comes
to the dispatches. So when a callback panics, the dispatches behind it are never told what they
came to; all others are, exactly once, whatever the callbacks do. Main statement:
`Session.endings_decided`.
-/
namespace SerialDispatch

/-- The calls by which a dispatch was told what it came to. -/
def Slip.endings (history : List Happening) (slip : Slip) : List (Nat × Event) :=
  (toldIn history).filter fun call => call.2.id = slip.id && call.2.signal.isFinished

/-- A callback has panicked ahead of the terminal signal of the dispatch. -/
def Slip.CutOff (history : List Happening) (slip : Slip) : Prop :=
  ∃ call ∈ toldIn history, PanicsIn history call ∧
    (call.2.id < slip.id ∨ call.2.id = slip.id ∧ call.2.signal.isFinished = false)

theorem Slip.cutOff_iff {history : List Happening} {slip : Slip} {call : Nat × Event}
    (told : call ∈ toldIn history) (panics : PanicsIn history call)
    (only : ∀ other ∈ toldIn history, PanicsIn history other → other = call) :
    slip.CutOff history ↔
      call.2.id < slip.id ∨ call.2.id = slip.id ∧ call.2.signal.isFinished = false := by
  constructor
  · rintro ⟨other, hother, wild, ahead⟩
    exact only other hother wild ▸ ahead
  · exact fun ahead => ⟨call, told, panics, ahead⟩

namespace Ledger

variable {S : Setup} {l m : Ledger} {h : Happening} {history : List Happening}
variable {events : List Event}

/-- The dispatches that the worker has come to, in order. -/
def visited (l : Ledger) : List Slip := l.settled.map Prod.fst ++ l.desk.toList.map Prod.fst

theorem accepted_visited (l : Ledger) : l.accepted = l.visited ++ l.waiting := by
  simp [visited, Ledger.accepted, roll, Function.comp_def]

/-- Signals are sent for dispatches that the worker has come to, and the terminal signal of a
dispatch behind all signals of earlier ones. -/
structure Prompt (l : Ledger) (events : List Event) : Prop where
  visited : ∀ e ∈ events, ∃ slip ∈ l.visited, slip.id = e.id
  inTurn : events.Pairwise fun a b => b.signal.isFinished = true → a.id ≤ b.id

theorem Prompt.go (prompt : l.Prompt events) (more : l.visited <+: m.visited) : m.Prompt events :=
  ⟨fun e he => (prompt.visited e he).imp fun _ found => ⟨more.subset found.1, found.2⟩,
    prompt.inTurn⟩

theorem Prompt.send (prompt : l.Prompt events) {e : Event} (same : m.visited = l.visited)
    (visited : ∃ slip ∈ l.visited, slip.id = e.id)
    (behind : e.signal.isFinished = true → ∀ slip ∈ l.visited, slip.id ≤ e.id) :
    m.Prompt (events ++ [e]) := by
  refine ⟨fun a ha => ?_, List.pairwise_append.2 ⟨prompt.inTurn, List.pairwise_singleton _ _,
    fun a ha b hb finished => ?_⟩⟩
  · rw [same]
    rcases List.mem_append.1 ha with old | new
    · exact prompt.visited a old
    · rw [List.mem_singleton.1 new]
      exact visited
  · rw [List.mem_singleton.1 hb] at finished ⊢
    obtain ⟨slip, hslip, hid⟩ := prompt.visited a ha
    exact hid ▸ behind finished slip hslip

/-- The worker has come to a dispatch whose operation was begun. -/
theorem Begun.visited {id : DispatchId} (begun : l.Begun id) :
    ∃ slip ∈ l.visited, slip.id = id := by
  obtain ⟨⟨slip, hslip, hid⟩, all⟩ := begun
  refine ⟨slip, ?_, hid⟩
  rw [accepted_visited] at hslip
  rcases List.mem_append.1 hslip with visited | waiting
  · exact visited
  · have entry : (slip, Stand.waiting) ∈ l.roll :=
      List.mem_append_right _ (List.mem_map_of_mem waiting)
    cases all _ entry hid

theorem Step.prompt (step : l.Step S h m) (ordered : l.Ordered) (there : m.torn = false)
    (prompt : l.Prompt events) :
    m.Prompt (events ++ h.message?.toList.filterMap Message.event?) := by
  have unsent : h.message?.toList.filterMap Message.event? = [] → l.visited <+: m.visited →
      m.Prompt (events ++ h.message?.toList.filterMap Message.event?) := by
    intro none more
    rw [none, List.append_nil]
    exact prompt.go more
  have sends : ∀ {e : Event}, h.message? = some (.event e) → m.visited = l.visited →
      (∃ slip ∈ l.visited, slip.id = e.id) →
      (e.signal.isFinished = true → ∀ slip ∈ l.visited, slip.id ≤ e.id) →
      m.Prompt (events ++ h.message?.toList.filterMap Message.event?) := by
    intro e posts same visited behind
    rw [posts]
    exact prompt.send same visited behind
  have ordinary : ∀ {e : Event}, e.signal.isFinished = false → e.signal.isFinished = true →
      ∀ slip ∈ l.visited, slip.id ≤ e.id := by
    intro e unfinished finished
    rw [unfinished] at finished
    cases finished
  cases step with
  | silent silent =>
    refine unsent ?_ List.prefix_rfl
    cases h <;> first | rfl | cases silent
  | attached posts => exact unsent (by rw [posts]; rfl) List.prefix_rfl
  | refused opened torn =>
    rw [show l.torn = false from there] at torn
    cases torn
  | taken time free first => exact unsent rfl (by simp [visited, free])
  | discarded time free first => exact unsent rfl (by simp [visited, free])
  | @worked slip p q h desk alone moves =>
    have same : visited { l with desk := some (slip, q) } = l.visited := by simp [visited, desk]
    cases moves with
    | emitted x posts unfinished =>
      exact sends posts same ⟨slip, by simp [visited, desk], rfl⟩ (ordinary unfinished)
    | _ => exact unsent rfl (same ▸ List.prefix_rfl)
  | @finished slip fate h desk posts =>
    refine sends posts (by simp [visited, desk]) ⟨slip, by simp [visited, desk], rfl⟩
      fun _ other visits => ?_
    have ascending := ordered.ascending
    rw [accepted_visited] at ascending
    have visited : l.visited = l.settled.map Prod.fst ++ [slip] := by simp [visited, desk]
    rw [visited] at ascending visits
    rcases List.mem_append.1 visits with earlier | last
    · exact Nat.le_of_lt ((List.pairwise_append.1 (List.pairwise_append.1 ascending).1).2.2 other
        earlier slip (List.mem_singleton_self slip))
    · exact (List.mem_singleton.1 last) ▸ Nat.le_refl _
  | @through h e late posts begun unfinished =>
    refine sends posts ?_ begun.visited (ordinary unfinished)
    cases hdesk : l.desk <;> simp [visited, hear, hdesk]
  | _ => exact unsent rfl List.prefix_rfl

theorem Run.prompt (run : Run S .empty history l) (there : l.torn = false) :
    l.Prompt ((messagesIn history).filterMap Message.event?) := by
  induction run with
  | nil => exact ⟨(fun _ h => by cases h), List.Pairwise.nil⟩
  | snoc run step ih =>
    have prompt := step.prompt run.ordered there (ih (step.there there))
    rwa [messagesIn_append, messagesIn_singleton, List.filterMap_append]

end Ledger

namespace Session

variable {S : Setup} {s : Session} {history later : List Happening} {call : Nat × Event}
variable {slip : Slip}

/-- What the ledger says of the order in which signals are sent while delivery goes on. -/
structure Prompted (history : List Happening) : Prop where
  ascending : (acceptedIn history).Pairwise fun a b => a.id < b.id
  inTurn : ((messagesIn history).filterMap Message.event?).Pairwise fun a b =>
    b.signal.isFinished = true → a.id ≤ b.id
  completed : (messagesIn history).filterMap Message.ended? <+: (acceptedIn history).map Slip.id
  earlier : ∀ e ∈ (messagesIn history).filterMap Message.event?, ∀ slip ∈ acceptedIn history,
    slip.id < e.id → slip.id ∈ (messagesIn history).filterMap Message.ended?

theorem Booked.prompted (booked : Booked S s) (alive : s.phase = .alive) : Prompted s.history := by
  obtain ⟨⟨l, run, fits⟩, dead⟩ := booked
  have untorn : l.torn = false := by
    cases torn : l.torn with
    | false => rfl
    | true => exact absurd alive (dead (fits.torn.1 torn)).1
  obtain ⟨-, completed⟩ := run.mail untorn
  have prompt := run.prompt untorn
  have ascending := run.ordered.ascending
  have settled : l.completed = (l.settled.map Prod.fst).map Slip.id := by
    simp [Ledger.completed, Function.comp_def]
  refine ⟨run.accepted_of_empty ▸ ascending, prompt.inTurn, ?_, fun e he slip hslip below => ?_⟩
  · rw [completed, settled, ← run.accepted_of_empty, l.accepted_visited, Ledger.visited]
    simp
  · rw [← run.accepted_of_empty] at hslip
    obtain ⟨other, visits, hid⟩ := prompt.visited e he
    rw [l.accepted_visited] at ascending hslip
    have visited := (List.pairwise_append.1 ascending).1
    rw [completed, settled]
    refine List.mem_map_of_mem ?_
    rcases List.mem_append.1 hslip with visit | waits
    · rcases List.mem_append.1 visit with early | here
      · exact early
      · -- The worker is at this dispatch, so it has not come to any other behind it.
        rcases List.mem_append.1 visits with settled | same
        · have behind := (List.pairwise_append.1 visited).2.2 other settled slip here
          exact absurd below (Nat.lt_asymm (hid ▸ behind))
        · cases hdesk : l.desk with
          | none => rw [hdesk] at here; cases here
          | some entry =>
            rw [hdesk] at here same
            rw [List.mem_singleton.1 here, ← hid, List.mem_singleton.1 same] at below
            exact absurd below (Nat.lt_irrefl _)
    · have behind := (List.pairwise_append.1 ascending).2.2 other visits slip waits
      exact absurd below (Nat.lt_asymm (hid ▸ behind))

/-- Every call brings a signal that was sent to the callback of its dispatch, and no terminal signal
is brought twice. -/
structure Told (history : List Happening) : Prop where
  calls : ∀ call ∈ toldIn history, .event call.2 ∈ messagesIn history ∧
    (call.2.id, call.1) ∈ (acceptedIn history).map Slip.address
  once : (concludedIn history).Nodup
  distinct : ((acceptedIn history).map Slip.id).Nodup

namespace Told

theorem extend (told : Told history) (past : history <+: later)
    (same : toldIn later = toldIn history)
    (distinct : ((acceptedIn later).map Slip.id).Nodup) : Told later := by
  obtain ⟨more, rfl⟩ := past
  refine ⟨fun call hcall => ?_, ?_, distinct⟩
  · rw [same] at hcall
    obtain ⟨sent, address⟩ := told.calls call hcall
    rw [messagesIn_append, acceptedIn_append, List.map_append]
    exact ⟨List.mem_append_left _ sent, List.mem_append_left _ address⟩
  · rw [concludedIn, same]
    exact told.once

theorem endings_of_concluded (told : Told history) (accepted : slip ∈ acceptedIn history)
    {outcome : Outcome}
    (once : (signalsIn history slip.id).filter Signal.isFinished = [.finished outcome])
    (concluded : slip.id ∈ concludedIn history) :
    slip.endings history = [(slip.callback, ⟨slip.id, .finished outcome⟩)] := by
  have all : ∀ call ∈ slip.endings history,
      call = (slip.callback, ⟨slip.id, .finished outcome⟩) := by
    rintro ⟨n, id, signal⟩ hcall
    obtain ⟨hcall, ends⟩ := List.mem_filter.1 hcall
    simp only [Bool.and_eq_true, decide_eq_true_eq] at ends
    obtain ⟨rfl, finished⟩ := ends
    obtain ⟨sent, address⟩ := told.calls _ hcall
    have heard : signal ∈ (signalsIn history slip.id).filter Signal.isFinished := by
      obtain ⟨h, hh, posts⟩ := List.mem_filterMap.1 sent
      refine List.mem_filter.2 ⟨List.mem_filterMap.2 ⟨h, hh, ?_⟩, finished⟩
      rw [Ledger.signal_of_posts posts, if_pos rfl]
    rw [once] at heard
    obtain ⟨other, hother, same⟩ := List.mem_map.1 address
    simp only [Slip.address, Prod.mk.injEq] at same
    have found : other = slip :=
      List.inj_on_of_nodup_map told.distinct hother accepted same.1
    rw [List.mem_singleton.1 heard, ← same.2, found]
  have replicated := List.eq_replicate_of_mem all
  have ids : (((slip.endings history).map Prod.snd).map Event.id).Sublist
      (concludedIn history) := by
    rw [concludedIn, endedBy, List.filter_map, Slip.endings]
    refine List.Sublist.map _ (List.Sublist.map _ ?_)
    refine List.monotone_filter_right _ fun call ends => ?_
    simp only [Bool.and_eq_true] at ends
    exact ends.2
  have distinct := told.once.sublist ids
  rw [replicated, List.map_replicate, List.map_replicate, List.nodup_replicate] at distinct
  have some_ : slip.endings history ≠ [] := by
    obtain ⟨e, he, hid⟩ := List.mem_map.1 concluded
    obtain ⟨told, finished⟩ := List.mem_filter.1 he
    obtain ⟨call, hcall, rfl⟩ := List.mem_map.1 told
    exact List.ne_nil_of_mem (List.mem_filter.2 ⟨hcall, by simp [hid, finished]⟩)
  rw [replicated, show (slip.endings history).length = 1 from
    Nat.le_antisymm distinct (List.length_pos_iff.2 some_)]
  rfl

theorem endings_of_open (open_ : slip.id ∉ concludedIn history) : slip.endings history = [] := by
  refine List.filter_eq_nil_iff.2 fun call hcall ends => open_ ?_
  simp only [Bool.and_eq_true, decide_eq_true_eq] at ends
  rw [← ends.1]
  exact List.mem_map_of_mem (List.mem_filter.2 ⟨List.mem_map_of_mem hcall, ends.2⟩)

end Told

/-- Delivery has ended with a call whose callback panicked. -/
structure Halted (history : List Happening) (call : Nat × Event) : Prop extends Told history where
  last : (toldIn history).getLast? = some call
  accepted : ∃ slip ∈ acceptedIn history, slip.id = call.2.id
  concluded : ∀ slip ∈ acceptedIn history, slip.id ∈ concludedIn history ↔
    slip.id < call.2.id ∨ slip.id = call.2.id ∧ call.2.signal.isFinished = true

theorem Halted.extend (halted : Halted history call) (past : history <+: later)
    (same : toldIn later = toldIn history)
    (ascending : (acceptedIn later).Pairwise fun a b => a.id < b.id) : Halted later call := by
  have distinct : ((acceptedIn later).map Slip.id).Nodup := by
    rw [List.Nodup, List.pairwise_map]
    exact ascending.imp fun h => Nat.ne_of_lt h
  have told := halted.toTold.extend past same distinct
  obtain ⟨more, rfl⟩ := past
  obtain ⟨first, hfirst, hid⟩ := halted.accepted
  rw [acceptedIn_append] at ascending
  refine ⟨told, same ▸ halted.last, ⟨first, ?_, hid⟩, fun slip hslip => ?_⟩
  · rw [acceptedIn_append]
    exact List.mem_append_left _ hfirst
  · rw [concludedIn, same]
    rw [acceptedIn_append] at hslip
    rcases List.mem_append.1 hslip with old | new
    · exact halted.concluded slip old
    · -- A dispatch accepted since then is behind all that were accepted before.
      have above : ∀ other ∈ acceptedIn history, other.id < slip.id := fun other hother =>
        (List.pairwise_append.1 ascending).2.2 other hother slip new
      refine iff_of_false (fun concluded => ?_) ?_
      · obtain ⟨e, he, heid⟩ := List.mem_map.1 concluded
        obtain ⟨call, hcall, rfl⟩ := List.mem_map.1 (List.mem_filter.1 he).1
        obtain ⟨other, hother, address⟩ := List.mem_map.1 (halted.calls call hcall).2
        have same : other.id = slip.id := (congrArg Prod.fst address).trans heid
        exact absurd (above other hother) (same ▸ Nat.lt_irrefl _)
      · have behind : call.2.id < slip.id := hid ▸ above first hfirst
        rintro (before | ⟨same, -⟩)
        · exact Nat.lt_asymm before behind
        · exact Nat.lt_irrefl _ (same ▸ behind)

variable {due : List Event} {passed : List (Message Command)}

theorem Musters.toTold (musters : Musters s due passed) (mailed : Mailed s.history) :
    Told s.history := by
  have address : passed.filterMap Message.address? <+:
      (acceptedIn s.history).map Slip.address := by
    rw [← mailed.addresses, musters.sent, List.filterMap_append]
    exact List.prefix_append _ _
  refine ⟨fun call hcall => ?_, ?_, mailed.distinct⟩
  · obtain ⟨sent, attached⟩ := musters.told call hcall
    rw [musters.sent]
    exact ⟨List.mem_append_left _ sent, address.subset attached⟩
  · have once := mailed.once
    rw [musters.sent, List.filterMap_append, musters.ended] at once
    exact (List.nodup_append.1 (List.nodup_append.1 once).1).1

theorem Musters.attached {e : Event} {callback : Callback Command} (musters : Musters s due passed)
    (found : s.callbacks.find? e.id = some callback) :
    (e.id, callback.number) ∈ passed.filterMap Message.address? ∧
      e.id ∉ concludedIn s.history := by
  refine (musters.held _ _).1 ?_
  rw [Callbacks.number?, found]
  rfl

theorem Musters.accepted_of_found {e : Event} {callback : Callback Command}
    (musters : Musters s due passed) (mailed : Mailed s.history)
    (found : s.callbacks.find? e.id = some callback) :
    ∃ slip ∈ acceptedIn s.history, slip.address = (e.id, callback.number) := by
  refine List.mem_map.1 ?_
  rw [← mailed.addresses, musters.sent, List.filterMap_append]
  exact List.mem_append_left _ (musters.attached found).1

/-- Delivery has brought the terminal signals of the dispatches ahead of the one whose signal it is
about to bring, and of no other. -/
theorem Musters.concluded_iff {e : Event} {callback : Callback Command}
    (musters : Musters s (e :: due) passed) (prompted : Prompted s.history)
    (mailed : Mailed s.history) (found : s.callbacks.find? e.id = some callback)
    (accepted : slip ∈ acceptedIn s.history) :
    slip.id ∈ concludedIn s.history ↔ slip.id < e.id := by
  have open_ : e.id ∉ concludedIn s.history := (musters.attached found).2
  obtain ⟨first, hfirst, haddress⟩ := musters.accepted_of_found mailed found
  have hid : first.id = e.id := congrArg Prod.fst haddress
  have inTurn := prompted.inTurn
  have earlier := prompted.earlier
  obtain ⟨rest, whole⟩ := prompted.completed
  have ascending : ((acceptedIn s.history).map Slip.id).Pairwise (· < ·) :=
    List.pairwise_map.2 prompted.ascending
  rw [musters.sent, List.filterMap_append] at inTurn earlier
  rw [← whole, musters.sent, List.filterMap_append, musters.ended] at ascending
  rw [List.filterMap_append, musters.ended] at earlier
  constructor
  · intro concluded
    by_contra notBelow
    have behind : e.id < slip.id :=
      Nat.lt_of_le_of_ne (Nat.le_of_not_lt notBelow) fun same => open_ (same ▸ concluded)
    have there : e.id ∈ (acceptedIn s.history).map Slip.id := hid ▸ List.mem_map_of_mem hfirst
    rw [← whole, musters.sent, List.filterMap_append, musters.ended, List.append_assoc,
      List.append_assoc] at there
    rw [List.append_assoc, List.append_assoc] at ascending
    rcases List.mem_append.1 there with early | late
    · exact open_ early
    · exact Nat.lt_asymm behind ((List.pairwise_append.1 ascending).2.2 _ concluded _ late)
  · intro below
    rcases List.mem_append.1 (earlier e (List.mem_append_left _
      (musters.due.subset List.mem_cons_self)) slip accepted below) with taken | waits
    · rcases List.mem_append.1 taken with concluded | due
      · exact concluded
      · obtain ⟨b, hb, hbid⟩ := List.mem_map.1 due
        obtain ⟨hb, finished⟩ := List.mem_filter.1 hb
        rcases List.mem_cons.1 hb with rfl | behind
        · exact absurd below (hbid ▸ Nat.lt_irrefl _)
        · have inOrder := List.rel_of_pairwise_cons
            ((List.pairwise_append.1 inTurn).1.sublist musters.due) behind finished
          exact absurd (hbid ▸ inOrder) (Nat.not_le_of_lt below)
    · rw [filterMap_ended] at waits
      obtain ⟨b, hb, hbid⟩ := List.mem_map.1 waits
      obtain ⟨hb, finished⟩ := List.mem_filter.1 hb
      have inOrder := (List.pairwise_append.1 inTurn).2.2 e
        (musters.due.subset List.mem_cons_self) b hb finished
      exact absurd (hbid ▸ inOrder) (Nat.not_le_of_lt below)

/-- A callback panics. -/
theorem Musters.halts {e : Event} {callback : Callback Command}
    (musters : Musters s (e :: due) passed) (booked : Booked S s) (alive : s.phase = .alive)
    (found : s.callbacks.find? e.id = some callback) :
    Halted (s.call callback e).history (callback.number, e) := by
  have mailed := booked.mailed alive
  have whole : (s.call callback e).history = s.history ++ [.told callback.number e] :=
    history_record _ _
  have accepted : acceptedIn (s.call callback e).history = acceptedIn s.history := by
    rw [whole, acceptedIn_append]
    exact List.append_nil _
  obtain ⟨first, hfirst, haddress⟩ := musters.accepted_of_found mailed found
  refine ⟨(musters.call found).toTold ((booked.call callback e).mailed alive), ?_,
    ⟨first, accepted ▸ hfirst, congrArg Prod.fst haddress⟩, fun slip hslip => ?_⟩
  · rw [whole, toldIn_append]
    exact List.getLast?_concat
  · rw [accepted] at hslip
    rw [whole, endedBy_toldIn (callback.number, e), List.mem_append,
      musters.concluded_iff (booked.prompted alive) mailed found hslip]
    refine or_congr Iff.rfl ?_
    cases hf : e.signal.isFinished <;> simp [endedBy, hf]

end Session

namespace Instant

variable {S : Setup} {i j : Instant} {steps : List CallerStep}

/-- Where a callback has panicked, the call that it panicked on is the last one. -/
theorem Occurs.halted (occurs : Occurs S steps i) (panicked : i.session.phase = .panicked) :
    ∃ call, Session.Halted i.session.history call := by
  induction occurs with
  | refl => cases panicked
  | @tail i j before next ih =>
    have move := move_of_next next
    rcases Occurs.poised before with alive | ⟨quiet, resting, -⟩
    · rcases move.parts alive with still | ⟨torn, -⟩ | ⟨limit, step, e, rest, callback, focus,
        found, session, -⟩
      · rw [still] at panicked
        cases panicked
      · rw [torn] at panicked
        cases panicked
      · obtain ⟨passed, musters⟩ := Occurs.musters before alive
        rw [focus] at musters
        rw [session]
        exact ⟨_, musters.halts (Occurs.booked before) alive found⟩
    · obtain ⟨mutes, -, phase⟩ := move.mutes quiet resting
      rcases phase with same | ⟨gone, -⟩
      · obtain ⟨call, halted⟩ := ih (same ▸ panicked)
        obtain ⟨⟨l, run, -⟩, -⟩ := move.booked (Occurs.booked before)
        exact ⟨call, halted.extend move.past mutes.told
          (run.accepted_of_empty ▸ run.ordered.ascending)⟩
      · rw [gone] at panicked
        cases panicked

end Instant

/-- What a shutdown that has returned leaves the callbacks told of what their dispatches came to. -/
structure Session.Concludes (S : Setup) (steps : List CallerStep) (t : Session) : Prop where
  /-- Every start that gave a handle was accepted under it, whoever made it. -/
  starts : ∀ i, Instant.Occurs S (steps ++ [.shutdown]) i →
    ∀ request input surface panicsOn reactions callback handle,
      i.command? = some (.start request input surface panicsOn reactions) →
      (i.session.perform S (.start request input surface panicsOn reactions)).2 =
        .started callback handle →
      ∃ slip : Slip, (acceptedIn t.history)[handle]? = some slip ∧ slip.callback = callback ∧
        slip.task.request = request ∧ slip.task.input = input
  ended : ∀ slip ∈ acceptedIn t.history, slip.Unstarted t.history ∨
    ∃ x result, slip.Completed S t.history x result
  told : ∀ slip ∈ acceptedIn t.history, ¬ slip.CutOff t.history → ∃ outcome,
    (signalsIn t.history slip.id).filter Signal.isFinished = [.finished outcome] ∧
      slip.endings t.history = [(slip.callback, ⟨slip.id, .finished outcome⟩)]
  untold : ∀ slip ∈ acceptedIn t.history, slip.CutOff t.history → slip.endings t.history = []

namespace Session

variable {S : Setup} {s : Session} {slip : Slip}

/-- When the worker is done, all that delivery still held is delivered or lost. -/
theorem Musters.all_concluded {passed : List (Message Command)} (musters : Musters s [] passed)
    (booked : Booked S s) (ended : s.stage = .ended) (empty : s.mailbox = [])
    (accepted : slip ∈ acceptedIn s.history) : slip.id ∈ concludedIn s.history := by
  obtain ⟨⟨l, run, fits⟩, -⟩ := booked
  obtain ⟨free, done, untorn⟩ := fits.done ended
  have ended := musters.ended
  rw [show endedBy [] = [] from rfl, List.append_nil] at ended
  have sent := musters.sent
  rw [empty, List.append_nil] at sent
  rw [← ended, ← sent, (run.mail untorn).2]
  rw [← run.accepted_of_empty, l.accepted_visited, Ledger.visited, free, done] at accepted
  have settled : slip ∈ l.settled.map Prod.fst := by simpa using accepted
  obtain ⟨entry, hentry, rfl⟩ := List.mem_map.1 settled
  exact List.mem_map_of_mem hentry

/-- The call that delivery has ended with is the only one that a callback panicked on. -/
theorem panic_of_parted {t : Session} {call : Nat × Event} (panicked : s.phase = .panicked)
    (compared : Together S s t ∨ Parted S s t) (halted : Halted s.history call) :
    call ∈ toldIn s.history ∧ PanicsIn s.history call ∧
      ∀ other ∈ toldIn s.history, PanicsIn s.history other → other = call := by
  rcases compared with together | ⟨-, ⟨before, last, after, -, hs, -, -, mute, panics, tame⟩, -⟩
  · exact absurd panicked together.unharmed
  · have told : toldIn s.history = toldIn before ++ [last] := by
      rw [hs, toldIn_append, show .told last.1 last.2 :: after = [.told last.1 last.2] ++ after
        from rfl, toldIn_append, toldIn_mute mute, List.append_nil]
      rfl
    have same := halted.last
    rw [told, List.getLast?_concat, Option.some.injEq] at same
    subst same
    refine ⟨told ▸ List.mem_append_right _ (List.mem_singleton_self _), panics,
      fun other hother wild => ?_⟩
    rw [told] at hother
    rcases List.mem_append.1 hother with early | here
    · exact absurd wild (tame other early)
    · exact List.mem_singleton.1 here

theorem Halted.concluded_iff_not_cutOff {t : Session} {call : Nat × Event}
    (halted : Halted s.history call) (panicked : s.phase = .panicked)
    (compared : Together S s t ∨ Parted S s t) (accepted : slip ∈ acceptedIn s.history) :
    slip.id ∈ concludedIn s.history ↔ ¬ slip.CutOff s.history := by
  obtain ⟨told, panics, only⟩ := panic_of_parted panicked compared halted
  rw [halted.concluded slip accepted, Slip.cutOff_iff told panics only]
  rcases Nat.lt_trichotomy slip.id call.2.id with before | same | behind
  · simp [before, Nat.lt_asymm before, Nat.ne_of_gt before]
  · simp [same]
  · simp [behind, Nat.lt_asymm behind, Nat.ne_of_gt behind]

/-- Who is told what their dispatch came to, when a shutdown has returned. -/
theorem endings_decided (S : Setup) (steps : List CallerStep)
    (returned : ((start.runScript S steps).step S .shutdown).2 = .stopped) :
    Concludes S steps ((start.runScript S steps).step S .shutdown).1 := by
  have longer : ((start.runScript S steps).step S .shutdown).1 =
      start.runScript S (steps ++ [.shutdown]) := by
    unfold runScript
    rw [List.foldl_append]
    rfl
  have hended := ended_of_stopped (booked_runScript S steps) returned
  have delivered := delivered_of_stopped (delivers_runScript S steps) returned
  rw [longer] at hended delivered ⊢
  have last := Instant.occurs_last S (steps ++ [.shutdown])
  have compared := compared_runScript S (steps ++ [.shutdown])
  have orderly := orderly_runScript S (steps ++ [.shutdown])
  have past : ∀ i, Instant.Occurs S (steps ++ [.shutdown]) i →
      i.session.history <+: (start.runScript S (steps ++ [.shutdown])).history :=
    fun i occurs => occurs.past
  generalize start.runScript S (steps ++ [.shutdown]) = t at *
  obtain ⟨⟨l, run, fits⟩, -⟩ := orderly.booked
  obtain ⟨free, done, untorn⟩ := fits.done hended
  have blocks := run.blocks_of_settled free done
  have finished : ∀ slip ∈ acceptedIn t.history, ∃ outcome,
      (signalsIn t.history slip.id).filter Signal.isFinished = [.finished outcome] := by
    intro slip hslip
    rcases blocks slip hslip with unstarted | ⟨x, result, completed⟩
    · exact ⟨_, unstarted.ends.once⟩
    · exact ⟨_, completed.ends.once⟩
  -- Whether a terminal signal was delivered decides all.
  have decided : Told t.history ∧ ∀ slip ∈ acceptedIn t.history,
      slip.id ∈ concludedIn t.history ↔ ¬ slip.CutOff t.history := by
    by_cases panicked : t.phase = .panicked
    · obtain ⟨call, halted⟩ : ∃ call, Halted t.history call := Instant.Occurs.halted last panicked
      exact ⟨halted.toTold, fun slip hslip =>
        halted.concluded_iff_not_cutOff panicked compared hslip⟩
    · obtain ⟨alive, empty⟩ := delivered panicked
      obtain ⟨passed, musters⟩ := Instant.Occurs.musters last alive
      refine ⟨musters.toTold (orderly.booked.mailed alive), fun slip hslip => iff_of_true
        (musters.all_concluded orderly.booked hended empty hslip) ?_⟩
      rintro ⟨call, told, panics, -⟩
      exact orderly.tame alive call told panics
  refine ⟨fun i occurs request input surface panicsOn reactions callback handle command started =>
    ?_, blocks, fun slip hslip notCut => ?_, fun slip hslip cut => ?_⟩
  · have untornAll : t.history.any Happening.isTearing = false := run.torn.symm.trans untorn
    have booked := Instant.Occurs.booked occurs
    refine booked.accepted_of_started (fun gone => ?_) ?_ started
    · have torn := Instant.torn_of_past (past i occurs) (booked.torn_of_dead gone)
      rw [untornAll] at torn
      cases torn
    · have next := Instant.next_of_command (S := S) command
      exact (Instant.past_carriedOut command _).trans (past _ (occurs.tail next))
  · obtain ⟨outcome, once⟩ := finished slip hslip
    exact ⟨outcome, once, decided.1.endings_of_concluded hslip once
      ((decided.2 slip hslip).2 notCut)⟩
  · exact Told.endings_of_open fun concluded => (decided.2 slip hslip).1 concluded cut

/-- The callback of the first of two dispatches panics on its progress. -/
theorem endings_decided_of_two :
    ((start.runScript (.sample [])
      [.command (.start ⟨.backup, ⟨[]⟩⟩ .default .unneeded (some .progress) []),
        .begin .backup .unneeded, .sleep 5]).step (.sample []) .shutdown).2 = .stopped ∧
    Concludes (.sample [])
      [.command (.start ⟨.backup, ⟨[]⟩⟩ .default .unneeded (some .progress) []),
        .begin .backup .unneeded, .sleep 5]
      ((start.runScript (.sample [])
        [.command (.start ⟨.backup, ⟨[]⟩⟩ .default .unneeded (some .progress) []),
          .begin .backup .unneeded, .sleep 5]).step (.sample []) .shutdown).1 :=
  ⟨answer_of_within 60 Prod.snd rfl,
    endings_decided (.sample []) _ (answer_of_within 60 Prod.snd rfl)⟩

/-- A callback that panics takes the news away from the dispatch behind it. -/
theorem not_always_told : ¬ ∀ (S : Setup) (steps : List CallerStep),
    ((start.runScript S steps).step S .shutdown).2 = .stopped →
      ∀ slip ∈ acceptedIn ((start.runScript S steps).step S .shutdown).1.history,
        (∀ callback, .attach slip.id callback ∈
          messagesIn ((start.runScript S steps).step S .shutdown).1.history →
            callback.panicsOn = none) →
        ∃ outcome, slip.endings ((start.runScript S steps).step S .shutdown).1.history =
          [(slip.callback, ⟨slip.id, .finished outcome⟩)] := by
  intro always
  have decided := always (.sample [])
    [.command (.start ⟨.backup, ⟨[]⟩⟩ .default .unneeded (some .progress) []),
      .begin .backup .unneeded, .sleep 5] (answer_of_within 60 Prod.snd rfl)
  have view := answer_of_within (S := .sample []) 60
    (fun done => (acceptedIn done.1.history, toldIn done.1.history,
      messagesIn done.1.history))
    (show ((start.scriptWithin (.sample []) 60
      [.command (.start ⟨.backup, ⟨[]⟩⟩ .default .unneeded (some .progress) []),
        .begin .backup .unneeded, .sleep 5]).bind fun s =>
          s.stepWithin (.sample []) 60 .shutdown).map _ =
      some ([⟨⟨1, ⟨.backup, ⟨[]⟩⟩, .default, 0, false⟩, 0⟩,
          ⟨⟨2, ⟨.backup, ⟨[]⟩⟩, .default, 1, false⟩, 1⟩],
        [(0, ⟨1, .progress ⟨none, 1, 2⟩⟩)],
        [.attach 1 ⟨0, some .progress, []⟩, .attach 2 ⟨1, none, []⟩,
          .event ⟨1, .progress ⟨none, 1, 2⟩⟩,
          .event ⟨1, .finished (.completed ⟨.backup, .ok, []⟩)⟩,
          .event ⟨2, .finished .cancelledBeforeStart⟩]) from rfl)
  generalize (Session.step (.sample []) _ .shutdown).1.history = history at decided view
  simp only [Prod.mk.injEq] at view
  obtain ⟨accepted, told, sent⟩ := view
  obtain ⟨outcome, endings⟩ := decided ⟨⟨2, ⟨.backup, ⟨[]⟩⟩, .default, 1, false⟩, 1⟩
    (accepted ▸ List.mem_cons_of_mem _ List.mem_cons_self) fun callback attached => by
      rw [sent] at attached
      simp only [Slip.id, List.mem_cons, Message.attach.injEq, reduceCtorEq, or_false,
        List.not_mem_nil] at attached
      rcases attached with ⟨hid, -⟩ | ⟨-, rfl⟩
      · cases hid
      · rfl
  rw [Slip.endings, told] at endings
  cases endings

end Session
end SerialDispatch
