import Mathlib.Data.List.Nodup
import SerialDispatch.Proofs.Channel.Accounts
import SerialDispatch.Proofs.Channel.Folding

/-!
# What a single callback gets to see

Callbacks are numbered in the order in which they are attached, and a dispatch may have many of
them, one after the other. A clerk's books say of two calls what the earlier one means for the later
one: `Clerk.Precedes`. As the clerk never puts a callback in charge after one with a higher number,
all calls are related in this way: `Clerk.Orderly`; main statement: `Channel.successive_run`.
-/
namespace SerialDispatch

namespace Message

variable {α : Type}

/-- The numbers of the callbacks that are attached by messages. -/
def numbers (messages : List (Message α)) : List Nat :=
  (messages.filterMap registration?).map (·.2.number)

variable {rest : List (Message α)}

@[simp] theorem numbers_attach (id : DispatchId) (callback : Callback α) :
    numbers (.attach id callback :: rest) = callback.number :: numbers rest := rfl

theorem numbers_append (first second : List (Message α)) :
    numbers (first ++ second) = numbers first ++ numbers second := by
  simp [numbers]

end Message

namespace Clerk

/-- What an earlier call means for a later one. For one dispatch the numbers never decrease. A
callback that is called again is called for the same dispatch, and has not been told its end. -/
def Precedes (earlier later : Nat × Event) : Prop :=
  (earlier.2.id = later.2.id → earlier.1 ≤ later.1) ∧
  (earlier.1 = later.1 → earlier.2.id = later.2.id ∧ earlier.2.signal.isFinished = false)

/-- The books of a clerk to whom no callback is known whose number is not below the bound. -/
structure Orderly (bound : Nat) (k : Clerk) : Prop where
  inCharge : ∀ id l, k.register id = some l → l.number < bound
  called : ∀ call ∈ k.told, call.1 < bound
  /-- Nobody is in charge of two dispatches. -/
  apart : ∀ id other l m, k.register id = some l → k.register other = some m →
    l.number = m.number → id = other
  /-- All calls so far precede the call that the next event would lead to. -/
  next : ∀ (e : Event) l, k.register e.id = some l → ∀ call ∈ k.told, Precedes call (l.number, e)
  order : k.told.Pairwise Precedes

variable {bound n : Nat} {k : Clerk} {l : Listener} {id : DispatchId} {e : Event}
  {coalescing : Bool}

theorem orderly_start : start.Orderly 0 := ⟨nofun, nofun, nofun, nofun, .nil⟩

/-- Whoever is put in charge has a higher number than all callbacks known. -/
theorem Orderly.attach (orderly : k.Orderly bound) (above : l.number = bound) :
    (k.attach id l).Orderly (bound + 1) := by
  have charge : ∀ other m, (k.attach id l).register other = some m →
      other = id ∧ m = l ∨ other ≠ id ∧ k.register other = some m := by
    intro other m h
    simp only [Clerk.attach] at h
    split at h
    · exact .inl ⟨‹_›, (Option.some.inj h).symm⟩
    · exact .inr ⟨‹_›, h⟩
  refine ⟨fun other m h => ?_, fun call told => ?_, fun first second m o h h' same => ?_,
    fun e m h call told => ?_, orderly.order⟩
  · rcases charge other m h with ⟨-, rfl⟩ | ⟨-, before⟩
    · omega
    · have := orderly.inCharge other m before
      omega
  · have := orderly.called call told
    omega
  · rcases charge first m h with ⟨rfl, rfl⟩ | ⟨-, before⟩ <;>
      rcases charge second o h' with ⟨rfl, rfl⟩ | ⟨-, before'⟩
    · rfl
    · have := orderly.inCharge second o before'
      omega
    · have := orderly.inCharge first m before
      omega
    · exact orderly.apart first second m o before before' same
  · rcases charge e.id m h with ⟨-, rfl⟩ | ⟨-, before⟩
    · have lower := orderly.called call told
      constructor
      · intro
        show call.1 ≤ m.number
        omega
      · intro same
        have : call.1 = m.number := same
        omega
    · exact orderly.next e m before call told

/-- Who is in charge after a call was so before it, and of the dispatch of the call only if the
dispatch goes on. -/
theorem register_call {m : Listener} (h : (k.call l e).register id = some m) :
    k.register id = some m ∧ (id = e.id → e.signal.isFinished = false) := by
  unfold call at h
  split at h
  · cases h
  · dsimp only at h
    split at h
    · cases h
    · rename_i goesOn
      refine ⟨h, fun same => ?_⟩
      by_contra ends
      exact goesOn ⟨by simpa using ends, same⟩

theorem Orderly.call (orderly : k.Orderly bound) (register : k.register e.id = some l) :
    (k.call l e).Orderly bound := by
  have mem : ∀ call ∈ (k.call l e).told, call ∈ k.told ∨ call = (l.number, e) := by
    intro call h
    rw [(told_call k l e).1] at h
    simpa using h
  refine ⟨fun id m h => orderly.inCharge id m (register_call h).1, fun call told => ?_,
    fun id other m o h h' => orderly.apart id other m o (register_call h).1 (register_call h').1,
    fun f m h call told => ?_, ?_⟩
  · rcases mem call told with before | rfl
    · exact orderly.called call before
    · exact orderly.inCharge e.id l register
  · obtain ⟨before, goesOn⟩ := register_call h
    rcases mem call told with earlier | rfl
    · exact orderly.next f m before call earlier
    · refine ⟨fun same => ?_, fun same => ?_⟩
      · have same : e.id = f.id := same
        rw [← same, register] at before
        have : l = m := Option.some.inj before
        simp [this]
      · have one : e.id = f.id := orderly.apart e.id f.id l m register before same
        exact ⟨one, goesOn one.symm⟩
  · rw [(told_call k l e).1, List.pairwise_append]
    refine ⟨orderly.order, List.pairwise_singleton _ _, fun earlier told later last => ?_⟩
    rw [List.mem_singleton.1 last]
    exact orderly.next e l register earlier told

theorem Orderly.pass (orderly : k.Orderly bound) (e : Event) :
    (k.pass (.event e : Message Empty)).Orderly bound := by
  cases halted : k.halted with
  | true => rwa [pass_halted halted]
  | false =>
    cases register : k.register e.id with
    | none =>
      rw [pass_unclaimed halted register]
      exact ⟨orderly.inCharge, orderly.called, orderly.apart, orderly.next, orderly.order⟩
    | some l =>
      rw [pass_claimed halted register]
      exact orderly.call register

theorem Orderly.passAll (orderly : k.Orderly bound) (events : List Event) :
    (k.passAll (events.map .event : List (Message Empty))).Orderly bound := by
  induction events generalizing k with
  | nil => exact orderly
  | cons e rest ih => exact ih (orderly.pass e)

theorem Orderly.registered (orderly : k.Orderly bound) {batch : List (Message Empty)}
    (numbered : Message.numbers batch = List.range' bound n) :
    (k.registered batch).Orderly (bound + n) := by
  induction batch generalizing k bound n with
  | nil =>
    have none : n = 0 := by simpa [Message.numbers] using congrArg List.length numbered.symm
    rw [none]
    exact orderly
  | cons m rest ih =>
    cases m with
    | event e => exact ih orderly numbered
    | attach id callback =>
      rw [Message.numbers_attach] at numbered
      cases n with
      | zero => cases numbered
      | succ n =>
        rw [List.range'_succ] at numbered
        obtain ⟨first, others⟩ := List.cons.inj numbered
        have attached : (k.attach id callback.listener).Orderly (bound + 1) :=
          orderly.attach first
        have whole := ih attached others
        rwa [show bound + 1 + n = bound + (n + 1) by omega] at whole

theorem Orderly.takeAll (orderly : k.Orderly bound) {batches : List (List (Message Empty))}
    (numbered : Message.numbers batches.flatten = List.range' bound n) :
    (k.takeAll coalescing batches).Orderly (bound + n) := by
  induction batches generalizing k bound n with
  | nil =>
    have none : n = 0 := by simpa [Message.numbers] using congrArg List.length numbered.symm
    rw [none]
    exact orderly
  | cons batch rest ih =>
    rw [List.flatten_cons, Message.numbers_append] at numbered
    obtain ⟨i, inside, first, others⟩ := List.range'_eq_append_iff.1 numbered.symm
    rw [Nat.mul_one] at others
    have taken : (k.take coalescing batch).Orderly (bound + i) :=
      (orderly.registered first).passAll _
    have whole := ih taken others
    rwa [show bound + i + (n - i) = bound + n by omega] at whole

end Clerk

theorem Poster.numbers_through (p : Poster) (sink : Nat) (signal : Signal) :
    Message.numbers (p.through sink signal) = [] := by
  unfold Poster.through
  cases p.sinks[sink]?.join <;> rfl

/-- A callback that is attached has the next number. -/
theorem Poster.numbered_step {p : Poster}
    (numbered : Message.numbers p.posted = List.range p.attached) (step : ChannelStep) :
    Message.numbers (p.step step).posted = List.range (p.step step).attached := by
  rw [Poster.step, Message.numbers_append, numbered]
  cases step with
  | attach id panicsOn =>
    rw [Poster.posts, Poster.next]
    split
    · exact List.range_succ.symm
    · exact List.append_nil _
  | sink id =>
    rw [Poster.next]
    split <;> exact List.append_nil _
  | progress sink update =>
    rw [Poster.posts, numbers_through]
    exact List.append_nil _
  | prevent sink =>
    rw [Poster.posts, numbers_through]
    exact List.append_nil _
  | finish id outcome =>
    rw [Poster.posts]
    split <;> exact List.append_nil _
  | dropSink | flush | close => exact List.append_nil _

namespace Channel

variable {c : Channel}

/-- The callbacks ever attached, in order, with their dispatches. -/
def attaches (c : Channel) : List (DispatchId × Callback Empty) :=
  c.posted.filterMap Message.registration?

/-- What a callback was told. -/
def received (c : Channel) (callback : Nat) : List Event :=
  (c.told.filter (·.1 = callback)).map Prod.snd

/-- The callbacks have the numbers from zero on. -/
def Numbered (c : Channel) : Prop := Message.numbers c.posted = List.range c.attached

section Numbering

theorem Numbered.step (numbered : c.Numbered) (step : ChannelStep) :
    (c.step step).1.Numbered := by
  show Message.numbers (c.step step).1.poster.posted = List.range (c.step step).1.poster.attached
  rw [poster_step]
  exact Poster.numbered_step (p := c.poster) numbered step

theorem Numbered.run (numbered : c.Numbered) (steps : List ChannelStep) :
    (c.run steps).Numbered := by
  induction steps generalizing c with
  | nil => exact numbered
  | cons step rest ih => exact ih (numbered.step step)

/-- Callbacks attached later have higher numbers. -/
theorem Numbered.ascending (numbered : c.Numbered) :
    c.attaches.Pairwise fun a b => a.2.number < b.2.number := by
  have numbers : (c.attaches.map (·.2.number)).Pairwise (· < ·) := by
    rw [show c.attaches.map (·.2.number) = List.range c.attached from numbered]
    exact List.pairwise_lt_range
  exact List.pairwise_map.1 numbers

/-- The number tells who it is. -/
theorem Numbered.unique (numbered : c.Numbered) {a b : DispatchId × Callback Empty}
    (first : a ∈ c.attaches) (second : b ∈ c.attaches) (same : a.2.number = b.2.number) :
    a = b := by
  have distinct : (c.attaches.map (·.2.number)).Nodup := by
    rw [show c.attaches.map (·.2.number) = List.range c.attached from numbered]
    exact List.nodup_range
  exact List.inj_on_of_nodup_map distinct first second same

end Numbering

/-- How the callbacks of a channel follow one another. -/
structure Successive (c : Channel) : Prop where
  numbered : c.attaches.map (·.2.number) = List.range c.attached
  /-- Whoever is called was attached to the dispatch of the event. -/
  attached : ∀ call ∈ c.told, ∃ callback,
    (call.2.id, callback) ∈ c.attaches ∧ callback.number = call.1
  /-- A callback is told of nothing but signals that were sent for its dispatch, in their order. -/
  own : ∀ id callback, (id, callback) ∈ c.attaches → List.Sublist (c.received callback.number)
    ((c.posted.filterMap Message.event?).filter (·.id = id))
  /-- Nothing comes after the finished signal. -/
  ending : ∀ callback, ∃ calls, ∃ last : Option Event,
    c.received callback = calls ++ last.toList ∧
    (∀ e ∈ calls, e.signal.isFinished = false) ∧ ∀ e ∈ last, e.signal.isFinished = true
  /-- The callbacks of a dispatch are called in the order of their numbers. -/
  order : ∀ id, ((c.told.filter (·.2.id = id)).map Prod.fst).Pairwise (· ≤ ·)
  /-- After a callback was told of anything none that it has replaced is called. -/
  replaced : ∀ id older newer, List.Sublist [(id, older), (id, newer)] c.attaches →
    Everywhere (fun _ call after => call.1 = newer.number →
      ∀ later ∈ after, later.1 ≠ older.number) c.told

section Calls

/-- If nothing comes after an end there is one end at most, and it is the last. -/
theorem ending_of_pairwise {events : List Event}
    (goOn : events.Pairwise fun a _ => a.signal.isFinished = false) :
    ∃ calls, ∃ last : Option Event, events = calls ++ last.toList ∧
      (∀ e ∈ calls, e.signal.isFinished = false) ∧ ∀ e ∈ last, e.signal.isFinished = true := by
  rcases List.eq_nil_or_concat events with rfl | ⟨calls, e, rfl⟩
  · exact ⟨[], none, by simp⟩
  · rw [List.concat_eq_append] at *
    have before : ∀ call ∈ calls, call.signal.isFinished = false := fun call h =>
      (List.pairwise_append.1 goOn).2.2 call h e (List.mem_singleton_self e)
    by_cases ends : e.signal.isFinished = true
    · exact ⟨calls, some e, rfl, before, by simpa using ends⟩
    · refine ⟨calls ++ [e], none, by simp, fun call h => ?_, nofun⟩
      rcases List.mem_append.1 h with h | h
      · exact before call h
      · rw [List.mem_singleton.1 h]
        simpa using ends

/-- The events of the calls in an account are events of the account, in their order. -/
theorem callIn_sublist (account : List (Event × EventFate)) :
    List.Sublist ((account.filterMap callIn).map Prod.snd) (account.map Prod.fst) := by
  induction account with
  | nil => exact .slnil
  | cons a rest ih =>
    obtain ⟨e, fate⟩ := a
    cases fate with
    | told n => exact ih.cons_cons e
    | _ => exact ih.cons e

end Calls

variable {coalescing : Bool} {batches : List (List (Message Empty))}
  {swept : List (Message Empty)}

theorem Reckoned.told_sublist (reckoned : Reckoned coalescing batches swept c) :
    List.Sublist (c.told.map Prod.snd) (c.posted.filterMap Message.event?) := by
  have told : c.told = (Clerk.start.accounts coalescing batches).filterMap callIn := by
    have books := (Clerk.told_accounts coalescing Clerk.start batches).1
    rwa [← reckoned.books] at books
  have taken : List.Sublist (c.told.map Prod.snd) (batches.flatten.filterMap Message.event?) := by
    rw [told, ← Clerk.map_accounts coalescing Clerk.start batches]
    exact callIn_sublist _
  rw [reckoned.posted, List.append_assoc, List.append_assoc, List.filterMap_append]
  exact taken.trans (List.sublist_append_left _ _)

theorem Reckoned.orderly (reckoned : Reckoned coalescing batches swept c)
    (numbered : c.Numbered) : ∃ bound, c.clerk.Orderly bound := by
  have numbers : Message.numbers c.posted = List.range' 0 c.attached := by
    rw [← List.range_eq_range']
    exact numbered
  rw [reckoned.posted, List.append_assoc, List.append_assoc, Message.numbers_append] at numbers
  obtain ⟨i, -, taken, -⟩ := List.range'_eq_append_iff.1 numbers.symm
  rw [reckoned.books]
  exact ⟨0 + i, Clerk.orderly_start.takeAll taken⟩

/-- Whoever is called was attached to the dispatch of the event. -/
theorem Reckoned.attached (reckoned : Reckoned coalescing batches swept c)
    {call : Nat × Event} (told : call ∈ c.told) :
    ∃ callback, (call.2.id, callback) ∈ c.attaches ∧ callback.number = call.1 := by
  have attested : (Clerk.start.takeAll coalescing batches).Attested c.posted :=
    (Clerk.attested_start c.posted).takeAll reckoned.taken_subset
  rw [← reckoned.books] at attested
  obtain ⟨callback, posted, number⟩ := attested.told call told
  exact ⟨callback, List.mem_filterMap.2 ⟨_, posted, rfl⟩, number⟩

theorem Reckoned.successive (reckoned : Reckoned coalescing batches swept c)
    (numbered : c.Numbered) : c.Successive := by
  obtain ⟨bound, orderly⟩ := reckoned.orderly numbered
  have order : c.told.Pairwise Clerk.Precedes := orderly.order
  -- A callback is called for the dispatch that it is attached to.
  have own : ∀ id callback, (id, callback) ∈ c.attaches →
      ∀ call ∈ c.told, call.1 = callback.number → call.2.id = id := by
    intro id callback attached call told same
    obtain ⟨other, there, number⟩ := reckoned.attached told
    exact congrArg Prod.fst (numbered.unique there attached (number.trans same))
  refine ⟨numbered, fun call told => reckoned.attached told, fun id callback attached => ?_,
    fun callback => ending_of_pairwise ?_, fun id => ?_, fun id older newer both => ?_⟩
  · have alike : (c.received callback.number).filter (·.id = id) = c.received callback.number := by
      refine List.filter_eq_self.2 fun e h => ?_
      obtain ⟨call, told, rfl⟩ := List.mem_map.1 h
      obtain ⟨told, same⟩ := List.mem_filter.1 told
      simpa using own id callback attached call told (by simpa using same)
    have sub : List.Sublist (c.received callback.number) (c.posted.filterMap Message.event?) :=
      (List.filter_sublist.map _).trans reckoned.told_sublist
    rw [← alike]
    exact sub.filter _
  · refine List.pairwise_map.2 ((order.filter _).imp_of_mem fun {a b} ha hb before => ?_)
    have one : a.1 = callback := by simpa using (List.mem_filter.1 ha).2
    have two : b.1 = callback := by simpa using (List.mem_filter.1 hb).2
    exact (before.2 (one.trans two.symm)).2
  · refine List.pairwise_map.2 ((order.filter _).imp_of_mem fun {a b} ha hb before => ?_)
    have one : a.2.id = id := by simpa using (List.mem_filter.1 ha).2
    have two : b.2.id = id := by simpa using (List.mem_filter.1 hb).2
    exact before.1 (one.trans two.symm)
  · intro before call after parts called later follows again
    have lower : older.number < newer.number := by
      have ascending := numbered.ascending.sublist both
      simpa using ascending
    have mem := both.subset
    have told : call ∈ c.told := by simp [parts]
    have toldLater : later ∈ c.told := by simp [parts, follows]
    have one : call.2.id = id := own id newer (mem (by simp)) call told called
    have two : later.2.id = id := own id older (mem (by simp)) later toldLater again
    rw [parts, List.pairwise_append, List.pairwise_cons] at order
    have upper : call.1 ≤ later.1 := (order.2.1.1 later follows).1 (one.trans two.symm)
    omega

/-- At every point of the use of a channel, whether it coalesces or not, a callback has been told of
nothing but signals sent for its own dispatch, of one finished signal at most, and of nothing after
it; and of the callbacks of a dispatch none was called after one with a higher number. -/
theorem successive_run (coalescing : Bool) (steps : List ChannelStep) :
    ((start coalescing).run steps).Successive := by
  obtain ⟨batches, moves⟩ := moves_run (emptied_start coalescing) steps
  obtain ⟨swept, reckoned⟩ := reckoned_moves moves
  have numbered : (start coalescing).Numbered := rfl
  exact reckoned.successive (numbered.run steps)

end Channel
end SerialDispatch
