import SerialDispatch.Proofs.Channel.Succession

/-!
# Who is in charge of a dispatch

When nothing waits in a channel, the callback in charge of a dispatch is the one that was attached
to it last, unless that one has been told its end: `Channel.inCharge`. Batches need not be mentioned,
although within a batch a registration takes effect ahead of an end that was sent before it: it is
then the new callback that is told the end.
-/
namespace SerialDispatch

namespace Clerk

/-- In charge of a dispatch is whoever was attached to it last, unless he has been told his end. -/
structure Appoints (attaches : List (DispatchId × Callback Empty)) (k : Clerk) : Prop where
  told : ∀ call ∈ k.told, call.1 ∈ attaches.map (·.2.number)
  register : k.halted = false → ∀ id l, k.register id = some l ↔
    ∃ callback, attaches.reverse.lookup id = some callback ∧ callback.listener = l ∧
      ∀ call ∈ k.told, call.1 = callback.number → call.2.signal.isFinished = false

namespace Appoints

variable {attaches : List (DispatchId × Callback Empty)} {k : Clerk} {id : DispatchId}
  {callback : Callback Empty} {l : Listener} {e : Event} {coalescing : Bool}

theorem start : Clerk.start.Appoints [] := ⟨nofun, by simp [Clerk.start]⟩

theorem lookup_snoc (other : DispatchId) :
    (attaches ++ [(id, callback)]).reverse.lookup other =
      if other = id then some callback else attaches.reverse.lookup other := by
  rw [List.reverse_append, List.reverse_singleton, List.singleton_append, List.lookup_cons]
  split
  · rw [if_pos (beq_iff_eq.1 ‹_›)]
  · rw [if_neg (beq_eq_false_iff_ne.1 ‹_›)]

theorem mem_of_lookup (found : attaches.reverse.lookup id = some callback) :
    (id, callback) ∈ attaches := by
  obtain ⟨before, after, parts, -⟩ := List.lookup_eq_some_iff.1 found
  rw [← List.mem_reverse, parts]
  exact List.mem_append_right _ List.mem_cons_self

/-- Nobody is in charge of two dispatches. -/
theorem apart (appoints : k.Appoints attaches) (going : k.halted = false)
    (distinct : (attaches.map (·.2.number)).Nodup) {other : DispatchId} {m : Listener}
    (first : k.register id = some l) (second : k.register other = some m)
    (same : l.number = m.number) : id = other := by
  obtain ⟨one, found, rfl, -⟩ := (appoints.register going id l).1 first
  obtain ⟨two, found', rfl, -⟩ := (appoints.register going other m).1 second
  exact congrArg Prod.fst (List.inj_on_of_nodup_map distinct (mem_of_lookup found)
    (mem_of_lookup found') same)

theorem attach (appoints : k.Appoints attaches)
    (fresh : callback.number ∉ attaches.map (·.2.number)) :
    (k.attach id callback.listener).Appoints (attaches ++ [(id, callback)]) := by
  refine ⟨fun call told => ?_, fun going other l => ?_⟩
  · rw [List.map_append]
    exact List.mem_append_left _ (appoints.told call told)
  · rw [lookup_snoc]
    show (if other = id then _ else k.register other) = some l ↔ _
    by_cases same : other = id
    · rw [if_pos same, if_pos same, Option.some.injEq]
      constructor
      · exact fun listener => ⟨callback, rfl, listener, fun call told number =>
          absurd (number ▸ appoints.told call told) fresh⟩
      · rintro ⟨last, now, listener, -⟩
        rwa [Option.some.inj now]
    · rw [if_neg same, if_neg same]
      exact appoints.register going other l

/-- Whoever is told his end is not in charge any more, and the others are as before. -/
theorem call (appoints : k.Appoints attaches) (distinct : (attaches.map (·.2.number)).Nodup)
    (register : k.register e.id = some l) (before : k.halted = false) :
    (k.call l e).Appoints attaches := by
  have mem : ∀ call, call ∈ (k.call l e).told ↔ call ∈ k.told ∨ call = (l.number, e) := by
    intro call
    rw [(told_call k l e).1, List.mem_append, List.mem_singleton]
  obtain ⟨last, found, rfl, unended⟩ := (appoints.register before e.id l).1 register
  refine ⟨fun call told => ?_, fun going id m => ?_⟩
  · rcases (mem call).1 told with earlier | rfl
    · exact appoints.told call earlier
    · exact List.mem_map_of_mem (mem_of_lookup found)
  constructor
  · intro now
    obtain ⟨earlier, goesOn⟩ := register_call now
    obtain ⟨callback, there, rfl, open_⟩ := (appoints.register before id m).1 earlier
    refine ⟨callback, there, rfl, fun call told number => ?_⟩
    rcases (mem call).1 told with told | rfl
    · exact open_ call told number
    · exact goesOn (appoints.apart before distinct register earlier number).symm
  · rintro ⟨callback, there, rfl, open_⟩
    have earlier := (appoints.register before id callback.listener).2 ⟨callback, there, rfl,
      fun call told number => open_ call ((mem call).2 (.inl told)) number⟩
    have calm : ¬ last.listener.panicsOn = some e.signal.trigger := fun panics => by
      rw [(halted_call k _ e).2 (.inl panics)] at going
      cases going
    rw [Clerk.call, if_neg calm]
    show (if _ then _ else k.register id) = _
    rw [if_neg, earlier]
    rintro ⟨ends, rfl⟩
    rw [found] at there
    have unfinished := open_ _ ((mem _).2 (.inr rfl)) (by rw [Option.some.inj there]; rfl)
    exact Bool.false_ne_true (unfinished.symm.trans ends)

theorem pass (appoints : k.Appoints attaches) (distinct : (attaches.map (·.2.number)).Nodup)
    (e : Event) : (k.pass (.event e : Message Empty)).Appoints attaches := by
  cases halted : k.halted with
  | true => rwa [pass_halted halted]
  | false =>
    cases register : k.register e.id with
    | none =>
      rw [pass_unclaimed halted register]
      exact ⟨appoints.told, appoints.register⟩
    | some l =>
      rw [pass_claimed halted register]
      exact appoints.call distinct register halted

theorem passAll (appoints : k.Appoints attaches) (distinct : (attaches.map (·.2.number)).Nodup)
    (events : List Event) :
    (k.passAll (events.map .event : List (Message Empty))).Appoints attaches := by
  induction events generalizing k with
  | nil => exact appoints
  | cons e rest ih => exact ih (appoints.pass distinct e)

theorem registered (appoints : k.Appoints attaches) {batch : List (Message Empty)}
    (distinct : ((attaches ++ batch.filterMap Message.registration?).map (·.2.number)).Nodup) :
    (k.registered batch).Appoints (attaches ++ batch.filterMap Message.registration?) := by
  induction batch generalizing k attaches with
  | nil =>
    rw [List.filterMap_nil, List.append_nil]
    exact appoints
  | cons m rest ih =>
    cases m with
    | event e => exact ih appoints distinct
    | attach id callback =>
      have parts : (Message.attach id callback :: rest).filterMap Message.registration? =
          (id, callback) :: rest.filterMap Message.registration? := rfl
      rw [parts, List.append_cons] at distinct ⊢
      refine ih (appoints.attach fun there => ?_) distinct
      rw [List.map_append, List.map_append] at distinct
      have apart := (List.nodup_append.1 (List.nodup_append.1 distinct).1).2.2
      exact apart _ there _ List.mem_cons_self rfl

theorem takeAll (appoints : k.Appoints attaches) {batches : List (List (Message Empty))}
    (distinct : ((attaches ++ batches.flatten.filterMap Message.registration?).map
      (·.2.number)).Nodup) :
    (k.takeAll coalescing batches).Appoints
      (attaches ++ batches.flatten.filterMap Message.registration?) := by
  induction batches generalizing k attaches with
  | nil =>
    rw [List.flatten_nil, List.filterMap_nil, List.append_nil]
    exact appoints
  | cons batch rest ih =>
    rw [List.flatten_cons, List.filterMap_append, ← List.append_assoc] at distinct ⊢
    have first := distinct
    rw [List.map_append] at first
    have first := (List.nodup_append.1 first).1
    exact ih ((appoints.registered first).passAll first _) distinct

end Appoints
end Clerk

namespace Channel

variable {c : Channel} {coalescing : Bool} {batches : List (List (Message Empty))}
  {swept : List (Message Empty)}

/-- The callback that was attached to a dispatch last, unless it has been told its end. -/
def inCharge (c : Channel) (id : DispatchId) : Option Listener :=
  ((c.attaches.reverse.lookup id).filter fun callback =>
    (c.received callback.number).all (!·.signal.isFinished)).map Callback.listener

theorem inCharge_eq_some_iff {id : DispatchId} {l : Listener} : c.inCharge id = some l ↔
    ∃ callback, c.attaches.reverse.lookup id = some callback ∧ callback.listener = l ∧
      ∀ call ∈ c.told, call.1 = callback.number → call.2.signal.isFinished = false := by
  have open_ : ∀ number, (c.received number).all (!·.signal.isFinished) = true ↔
      ∀ call ∈ c.told, call.1 = number → call.2.signal.isFinished = false := by
    intro number
    simp [received, or_iff_not_imp_left]
  rw [inCharge, Option.map_eq_some_iff]
  constructor
  · rintro ⟨callback, there, listener⟩
    obtain ⟨last, unended⟩ := Option.filter_eq_some_iff.1 there
    exact ⟨callback, last, listener, (open_ _).1 unended⟩
  · rintro ⟨callback, last, listener, unended⟩
    exact ⟨callback, Option.filter_eq_some_iff.2 ⟨last, (open_ _).2 unended⟩, listener⟩

/-- The callbacks that are registered when nothing waits are those that are in charge. -/
theorem Reckoned.inCharge (reckoned : Reckoned coalescing batches swept c) (numbered : c.Numbered)
    (alive : c.phase = .alive) (empty : c.mailbox = []) : c.callbacks.listener? = c.inCharge := by
  obtain ⟨rfl, nothing⟩ := reckoned.alive alive
  have attaches : c.attaches = batches.flatten.filterMap Message.registration? := by
    rw [Channel.attaches, reckoned.posted, empty, nothing]
    simp
  have distinct : (c.attaches.map (·.2.number)).Nodup := by
    rw [show c.attaches.map (·.2.number) = List.range c.attached from numbered]
    exact List.nodup_range
  have appoints : c.clerk.Appoints c.attaches := by
    rw [attaches] at distinct ⊢
    rw [reckoned.books]
    exact Clerk.Appoints.start.takeAll distinct
  funext id
  exact Option.ext fun l => (appoints.register (c.going_iff.2 alive) id l).trans
    inCharge_eq_some_iff.symm

end Channel
end SerialDispatch
