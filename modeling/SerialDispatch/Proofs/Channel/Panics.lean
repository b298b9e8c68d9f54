import SerialDispatch.Proofs.Channel.Succession

/-!
# When delivery has come to its end

Delivery ends when a callback panics, and in no other way. Whether one has panicked is told here by
the calls alone: a callback that was attached has been called in the way in which it panics. So a
channel whose delivery has ended is one with such a call; main statement:
`Channel.hasPanicked_iff`.
-/
namespace SerialDispatch

namespace Clerk

/-- Whoever was told of anything was attached, and has halted the clerk if that made him panic. -/
structure Heeding (messages : List (Message Empty)) (k : Clerk) : Prop where
  attested : k.Attested messages
  heeds : ∀ call ∈ k.told, ∃ callback, .attach call.2.id callback ∈ messages ∧
    callback.number = call.1 ∧
    (callback.panicsOn = some call.2.signal.trigger → k.halted = true)

namespace Heeding

variable {messages batch : List (Message Empty)} {k : Clerk} {coalescing : Bool}

theorem start (messages : List (Message Empty)) : Clerk.start.Heeding messages :=
  ⟨attested_start messages, nofun⟩

theorem pass (heeding : k.Heeding messages) (e : Event) :
    (k.pass (.event e : Message Empty)).Heeding messages := by
  refine ⟨heeding.attested.pass e, fun call told => ?_⟩
  cases halted : k.halted with
  | true =>
    rw [pass_halted halted] at told ⊢
    exact heeding.heeds call told
  | false =>
    cases register : k.register e.id with
    | none =>
      rw [pass_unclaimed halted register] at told ⊢
      exact heeding.heeds call told
    | some l =>
      rw [pass_claimed halted register] at told ⊢
      rw [(told_call k l e).1, List.mem_append, List.mem_singleton] at told
      rcases told with before | rfl
      · obtain ⟨callback, attached, number, heeds⟩ := heeding.heeds call before
        exact ⟨callback, attached, number, fun panics =>
          (halted_call k l e).2 (.inr (heeds panics))⟩
      · obtain ⟨callback, attached, rfl⟩ := heeding.attested.register e.id l register
        exact ⟨callback, attached, rfl, fun panics => (halted_call k _ e).2 (.inl panics)⟩

theorem passAll (heeding : k.Heeding messages) (events : List Event) :
    (k.passAll (events.map .event : List (Message Empty))).Heeding messages := by
  induction events generalizing k with
  | nil => exact heeding
  | cons e rest ih => exact ih (heeding.pass e)

theorem take (heeding : k.Heeding messages) (sub : batch ⊆ messages) :
    (k.take coalescing batch).Heeding messages := by
  have registered : (k.registered batch).Heeding messages := by
    refine ⟨heeding.attested.registered sub, ?_⟩
    rw [registered_same]
    exact heeding.heeds
  exact registered.passAll _

theorem takeAll {batches : List (List (Message Empty))} (heeding : k.Heeding messages)
    (sub : batches.flatten ⊆ messages) : (k.takeAll coalescing batches).Heeding messages := by
  induction batches generalizing k with
  | nil => exact heeding
  | cons batch rest ih =>
    obtain ⟨first, others⟩ := List.append_subset.1 sub
    exact ih (heeding.take first) others

end Heeding
end Clerk

namespace Channel

variable {coalescing : Bool} {batches : List (List (Message Empty))}
  {swept : List (Message Empty)} {c : Channel}

/-- A callback was called in the way in which it panics. -/
def HasPanicked (c : Channel) : Prop :=
  ∃ call ∈ c.told, ∃ callback, (call.2.id, callback) ∈ c.attaches ∧
    callback.number = call.1 ∧ callback.panicsOn = some call.2.signal.trigger

theorem mem_attaches_iff {id : DispatchId} {callback : Callback Empty} :
    (id, callback) ∈ c.attaches ↔ .attach id callback ∈ c.posted := by
  rw [attaches, List.mem_filterMap]
  constructor
  · rintro ⟨m, posted, registration⟩
    cases m with
    | attach other callback =>
      cases registration
      exact posted
    | event e => cases registration
  · exact fun posted => ⟨_, posted, rfl⟩

theorem Reckoned.hasPanicked_iff (reckoned : Reckoned coalescing batches swept c)
    (numbered : c.Numbered) : c.HasPanicked ↔ c.phase ≠ .alive := by
  rw [← halted_iff]
  constructor
  · rintro ⟨call, told, callback, attached, number, panics⟩
    have heeding : c.clerk.Heeding c.posted := by
      rw [reckoned.books]
      exact (Clerk.Heeding.start c.posted).takeAll reckoned.taken_subset
    obtain ⟨other, posted, same, heeds⟩ := heeding.heeds call told
    -- Numbers are given out once, so it is the same callback.
    have one := numbered.unique (mem_attaches_iff.2 posted) attached (same.trans number.symm)
    cases one
    exact heeds panics
  · intro halted
    rw [reckoned.books] at halted
    obtain ⟨e, callback, settled, posted, panics⟩ :=
      (Clerk.attested_start c.posted).halted rfl reckoned.taken_subset halted
    have told : (callback.number, e) ∈ c.told := by
      have books := (Clerk.told_accounts coalescing Clerk.start batches).1
      rw [← reckoned.books] at books
      rw [show c.told = _ from books]
      exact List.mem_filterMap.2 ⟨_, settled, rfl⟩
    exact ⟨_, told, callback, mem_attaches_iff.2 posted, rfl, panics⟩

/-- Delivery has ended where a callback was called in the way in which it panics. -/
theorem hasPanicked_iff (coalescing : Bool) (steps : List ChannelStep) :
    ((start coalescing).run steps).HasPanicked ↔
      ((start coalescing).run steps).phase ≠ .alive := by
  obtain ⟨batches, moves⟩ := moves_run (emptied_start coalescing) steps
  obtain ⟨swept, reckoned⟩ := reckoned_moves moves
  have numbered : (start coalescing).Numbered := rfl
  exact reckoned.hasPanicked_iff (numbered.run steps)

end Channel
end SerialDispatch
