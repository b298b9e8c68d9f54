import SerialDispatch.Proofs.Channel.Poster

/-!
# Delivery without coalescing does not depend on when it runs

A channel that does not coalesce handles its messages one by one, so the books of its delivery are
those of a clerk who has handled all that was posted, as soon as what waits has been handled, too:
`Channel.Folded`. What is posted follows from the steps alone, and flushes post nothing: `Poster`.
So callbacks are told and messages are logged the same wherever the channel is flushed, also when a
callback panics; main statement: `Channel.flushes_immaterial`.
-/
namespace SerialDispatch
namespace Channel

variable {c d : Channel}

/-- Once what waits is handled, all that was posted has been handled, message by message. -/
structure Folded (c : Channel) : Prop where
  plain : c.coalescing = false
  emptied : c.Emptied
  books : c.clerk.passAll c.mailbox = Clerk.start.passAll c.posted

theorem folded_start : (start false).Folded := ⟨rfl, emptied_start false, rfl⟩

theorem Folded.send (folded : c.Folded) (m : Message Empty) : (c.send m).Folded := by
  refine ⟨(coalescing_send c m).trans folded.plain, folded.emptied.move (.posted m), ?_⟩
  have handled : (c.clerk.passAll c.mailbox).pass m = Clerk.start.passAll (c.posted ++ [m]) := by
    rw [folded.books, Clerk.passAll_append]
    rfl
  rw [clerk_send, posted_send, mailbox_send, ← handled]
  split
  · exact c.clerk.passAll_append c.mailbox [m]
  · rename_i ended
    have halted : c.clerk.halted = true := c.halted_iff.2 ended
    rw [Clerk.passAll_halted halted, Clerk.pass_halted halted]

/-- A message is delivered as a clerk handles it. -/
theorem clerk_deliverOne (plain : c.coalescing = false) (alive : c.phase = .alive)
    (m : Message Empty) (rest : List (Message Empty)) :
    (c.deliverBatch [m] rest).clerk = c.clerk.pass m := by
  rw [clerk_deliverBatch alive, plain]
  cases m with
  | attach id callback => exact (Clerk.pass_attach (c.going_iff.2 alive) id callback).symm
  | event e => rfl

theorem Folded.move {batches : List (List (Message Empty))} (folded : c.Folded)
    (move : Move c batches d) : d.Folded := by
  cases move with
  | own => exact ⟨folded.plain, folded.emptied, folded.books⟩
  | posted m => exact folded.send m
  | @delivered batch rest alive waiting next =>
    obtain ⟨m, others, mailbox⟩ := List.exists_cons_of_ne_nil waiting
    obtain ⟨rfl, rfl⟩ : [m] = batch ∧ others = rest := by
      simpa [Message.nextBatch, folded.plain, mailbox] using next
    have quiet := quiet_deliverBatch c [m] others
    have books := folded.books
    rw [mailbox, Clerk.passAll, List.foldl_cons, ← clerk_deliverOne folded.plain alive m others]
      at books
    refine ⟨quiet.coalescing.trans folded.plain,
      folded.emptied.move (.delivered alive waiting next), ?_⟩
    rw [(past_deliverBatch c [m] others).1, ← books]
    rcases phase_deliverBatch alive [m] others with ⟨-, left⟩ | ⟨panicked, left⟩
    · rw [left]
      rfl
    · have halted : (c.deliverBatch [m] others).clerk.halted = true :=
        (halted_iff _).2 (by rw [panicked]; decide)
      exact (Clerk.passAll_halted halted _).trans (Clerk.passAll_halted halted others).symm

theorem Folded.moves {batches : List (List (Message Empty))} (folded : c.Folded)
    (moves : Moves c batches d) : d.Folded :=
  moves.kept (P := fun _ d => d.Folded) folded fun _ _ _ _ before move => before.move move

theorem Folded.run (folded : c.Folded) (steps : List ChannelStep) : (c.run steps).Folded :=
  let ⟨_, moves⟩ := moves_run folded.emptied steps
  folded.moves moves

theorem mailbox_deliverEach {mailbox : List (Message Empty)} (waiting : c.mailbox = mailbox)
    (alive : mailbox ≠ [] → c.phase = .alive) : (c.deliverEach mailbox).mailbox = [] := by
  induction mailbox generalizing c with
  | nil => exact waiting
  | cons m rest ih =>
    have left := phase_deliverBatch (alive (List.cons_ne_nil _ _)) [m] rest
    rw [deliverEach]
    split
    · rename_i next
      refine ih (left.elim And.right fun panicked => ?_) fun _ => next
      rw [next] at panicked
      cases panicked.1
    · rename_i ended
      exact left.elim (fun going => absurd going.1 ended) And.right

/-- After a drain all that was posted has been handled. -/
theorem Folded.clerk_drain (folded : c.Folded) : c.drain.clerk = Clerk.start.passAll c.posted := by
  have drained : c.drain.Folded := by
    obtain ⟨batches, moves⟩ := moves_drain folded.emptied
    exact folded.moves moves
  have same : c.drain = c.deliverEach c.mailbox := by
    rw [Channel.drain, folded.plain]
    rfl
  have empty : c.drain.mailbox = [] := by rw [same, mailbox_deliverEach rfl folded.emptied.alive]
  have books := drained.books
  rw [empty] at books
  exact books.trans (congrArg (fun p : Poster => Clerk.start.passAll p.posted) (poster_drain c))

/-- What a channel that is flushed last tells and logs is what a clerk does that handles one by one
the messages that the steps post, the flushes left out. -/
theorem clerk_flushed (steps : List ChannelStep) :
    ((start false).run (steps ++ [.flush])).clerk =
      Clerk.start.passAll (Poster.start.run (steps.filter (· ≠ .flush))).posted := by
  rw [run_append, Poster.run_filter, ← posted_run_start false]
  exact (folded_start.run steps).clerk_drain

theorem posted_flushed (steps : List ChannelStep) :
    ((start false).run (steps ++ [.flush])).posted =
      (Poster.start.run (steps.filter (· ≠ .flush))).posted := by
  rw [posted_run_start, ← Poster.run_filter, List.filter_append]
  exact congrArg (fun steps => (Poster.start.run steps).posted) (List.append_nil _)

/-- Two channels that do not coalesce are used in the same way but for the points at which they are
flushed, of which the last is at the end. The same messages are posted, those that the other steps
post. The same callbacks are told of the same events in the same order, and the same is logged,
though maybe at other times: what a clerk tells and logs that handles these messages one by one,
until a callback panics. -/
theorem flushes_immaterial {first second : List ChannelStep}
    (same : first.filter (· ≠ .flush) = second.filter (· ≠ .flush)) :
    ((start false).run (first ++ [.flush])).posted =
      (Poster.start.run (first.filter (· ≠ .flush))).posted ∧
    ((start false).run (second ++ [.flush])).posted =
      ((start false).run (first ++ [.flush])).posted ∧
    ((start false).run (second ++ [.flush])).told =
      ((start false).run (first ++ [.flush])).told ∧
    ((start false).run (second ++ [.flush])).logged =
      ((start false).run (first ++ [.flush])).logged ∧
    ((start false).run (first ++ [.flush])).told =
      (Clerk.start.passAll (Poster.start.run (first.filter (· ≠ .flush))).posted).told ∧
    ((start false).run (first ++ [.flush])).logged =
      (Clerk.start.passAll (Poster.start.run (first.filter (· ≠ .flush))).posted).logged := by
  have books : ((start false).run (second ++ [.flush])).clerk =
      ((start false).run (first ++ [.flush])).clerk := by
    rw [clerk_flushed, clerk_flushed, same]
  have folded := clerk_flushed first
  refine ⟨posted_flushed first, ?_, congrArg Clerk.told books, congrArg Clerk.logged books,
    congrArg Clerk.told folded, congrArg Clerk.logged folded⟩
  rw [posted_flushed, posted_flushed, same]

/-- A callback takes the place of another, a dispatch has none and later one that panics, and a
dispatch ends twice. -/
def succession : List ChannelStep :=
  [.attach 1 none, .sink 1, .sink 2, .progress 0 ⟨none, 1, 4⟩, .prevent 1, .attach 1 none,
    .progress 0 ⟨none, 2, 4⟩, .finish 1 .cancelledBeforeStart, .finish 1 .cancelledBeforeStart,
    .attach 2 (some .prevent), .progress 1 ⟨none, 1, 9⟩, .prevent 1, .progress 1 ⟨none, 2, 9⟩,
    .attach 1 none, .progress 0 ⟨none, 3, 4⟩]

/-- Of thirteen messages three come after the one by which a callback panics. They wait when it
does, unless the channel was flushed before they are posted: then they are lost. -/
theorem flushes_immaterial_of_succession :
    ((start false).run (succession ++ [.flush])).told.length = 5 ∧
    ((start false).run (succession ++ [.flush])).logged =
      [.unclaimed 2 .prevent, .unclaimed 1 .finished] ∧
    ((start false).run (succession ++ [.flush])).lost.length = 0 ∧
    ((start false).run (succession.take 4 ++ .flush :: (succession.drop 4).take 8 ++
      .flush :: succession.drop 12 ++ [.flush])).lost.length = 3 ∧
    ((start false).run (succession.take 4 ++ .flush :: (succession.drop 4).take 8 ++
      .flush :: succession.drop 12 ++ [.flush])).told =
        ((start false).run (succession ++ [.flush])).told ∧
    ((start false).run (succession.take 4 ++ .flush :: (succession.drop 4).take 8 ++
      .flush :: succession.drop 12 ++ [.flush])).logged =
        ((start false).run (succession ++ [.flush])).logged := by
  refine ⟨by decide +kernel, by decide +kernel, by decide +kernel, by decide +kernel, ?_⟩
  have same := @flushes_immaterial succession (succession.take 4 ++
    .flush :: (succession.drop 4).take 8 ++ .flush :: succession.drop 12) (by decide +kernel)
  exact ⟨same.2.2.1, same.2.2.2.1⟩

end Channel
end SerialDispatch
