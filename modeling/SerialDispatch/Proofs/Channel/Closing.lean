import SerialDispatch.Proofs.Channel.LetGo
import SerialDispatch.Proofs.Channel.Panics

/-!
# Closing a channel

Closing a channel delivers what waits, and then tells whether delivery has ended: because a callback
has panicked, or because nobody is left who could send. If a sink is still held the channel goes on
without its owner; main statement: `Channel.closes_first`.
-/
namespace SerialDispatch
namespace Channel

variable {c : Channel} {ex : List (ChannelStep × ChannelReply)}

/-- The first time that a channel is closed, with the exchanges before, the channel then and
afterwards, and the answer. -/
structure ClosesFirst (coalescing : Bool) (ex : List (ChannelStep × ChannelReply)) (c d : Channel)
    (answer : ChannelReply) : Prop where
  flushes : ∃ holding clock, d = { (c.step .flush).1 with holding, clock }
  empties : d.mailbox = []
  panicked : answer = .deliveryPanicked ↔ d.HasPanicked
  ended : answer = .ended ↔ ¬ d.HasPanicked ∧ AllDropped ex
  pending : answer = .pending ↔ ¬ d.HasPanicked ∧ ¬ AllDropped ex
  held : ∀ n id, d.sinks[n]? = some (some id) ↔
    (.sink id, .sink n) ∈ ex ∧ (.dropSink n, .dropped true) ∉ ex
  /-- If delivery has not ended, the signals that are sent later through sinks are delivered to the
  callbacks in charge of their dispatches, in the order of sending and without gaps, but for
  progress that is superseded where the channel coalesces, until a callback panics. -/
  goesOn : answer = .pending → ∀ later, ∃ kept,
    Thinned Event.Superseded (ChannelStep.signals d.sinks later) kept ∧
    (coalescing = false → kept = ChannelStep.signals d.sinks later) ∧
    (d.run (later ++ [.flush])).told = d.told ++ Listener.calls d.inCharge kept

theorem Lent.closesFirst (lent : Lent ex c) (open_ : c.holding ≠ .closed)
    {coalescing : Bool} {batches : List (List (Message Empty))}
    (moves : Moves (start coalescing) batches c) (numbered : c.Numbered)
    (panicked : (c.step .close).1.HasPanicked ↔ (c.step .close).1.phase ≠ .alive) :
    ClosesFirst coalescing ex c (c.step .close).1 (c.step .close).2 := by
  have emptied := (emptied_start coalescing).moves moves
  obtain ⟨more, further⟩ := moves_step emptied .close
  have moves := moves.trans further
  obtain ⟨holding, clock, same, letGo⟩ := step_close open_
  obtain ⟨panics, ends, pends⟩ := answer_close open_
  have sinks : c.drain.sinks = c.sinks := congrArg Poster.sinks (poster_drain c)
  have dropped : AllDropped ex ↔ c.drain.noSinkHeld = true := by
    rw [noSinkHeld, sinks]
    exact lent.noSinkHeld_iff.symm
  have next := numbered.step .close
  rw [same] at moves next panicked ⊢
  have going : ¬ HasPanicked { c.drain with holding, clock } ↔ c.drain.phase = .alive :=
    panicked.not.trans not_not
  refine ⟨⟨holding, clock, rfl⟩, mailbox_drain emptied, panics.trans panicked.symm, ?_, ?_,
    fun n id => ?_, fun pending later => ?_⟩
  · rw [going, dropped]
    exact ends
  · rw [going, dropped]
    exact pends
  · rw [← lent.held n id, ← sinks]
  · have left := mailbox_flushed ((emptied_start coalescing).moves moves) later
    rw [← ChannelStep.signals_flush]
    exact told_signals moves next (pends.1 pending).1 (mailbox_drain emptied) letGo left

/-- In every use of a channel, whether it coalesces or not, closing it for the first time delivers
what waits; the answer tells whether a callback has panicked, and else whether all sinks were
dropped; and where one is still held the signals that are sent through it later are delivered. -/
theorem closes_first (coalescing : Bool) {before : List ChannelStep} (first : .close ∉ before) :
    ClosesFirst coalescing (exchanges Channel.step (start coalescing) before)
      ((start coalescing).run before) (((start coalescing).run before).step .close).1
      (((start coalescing).run before).step .close).2 := by
  have lent : Lent (exchanges Channel.step (start coalescing) before)
      ((start coalescing).run before) :=
    kept_along (lent_start coalescing) (fun _ _ step lent => lent.next step) before
  have open_ : ((start coalescing).run before).holding ≠ .closed := by
    rw [held_run rfl first]
    exact nofun
  have panicked := hasPanicked_iff coalescing (before ++ [.close])
  rw [run_append] at panicked
  obtain ⟨batches, moves⟩ := moves_run (emptied_start coalescing) before
  have numbered : (start coalescing).Numbered := rfl
  exact lent.closesFirst open_ moves (numbered.run before) panicked

/-- A dispatch has two sinks, of which one is dropped, and a callback that panics when cancelling
becomes impossible. -/
def lending : List ChannelStep :=
  [.attach 1 (some .prevent), .sink 1, .sink 1, .progress 1 ⟨none, 1, 4⟩, .dropSink 1]

/-- Closing the channel remains pending, for one sink is held. Of the four signals that are sent
through it later the first is superseded, and the third makes the callback panic. -/
theorem closes_first_of_lending :
    .close ∉ lending ∧ (((start true).run lending).step .close).2 = .pending ∧
    ¬ (((start true).run lending).step .close).1.HasPanicked ∧
    ¬ AllDropped (exchanges Channel.step (start true) lending) ∧
    ((start true).run (lending ++ [.close, .progress 0 ⟨none, 2, 4⟩, .progress 0 ⟨none, 3, 4⟩,
      .prevent 0, .prevent 0, .flush])).told =
        [(0, ⟨1, .progress ⟨none, 1, 4⟩⟩), (0, ⟨1, .progress ⟨none, 3, 4⟩⟩),
          (0, ⟨1, .preventCancel⟩)] := by
  have open_ : .close ∉ lending := by decide
  have pending : (((start true).run lending).step .close).2 = .pending := by decide +kernel
  obtain ⟨going, held⟩ := (closes_first true open_).pending.1 pending
  exact ⟨open_, pending, going, held, by decide +kernel⟩

end Channel
end SerialDispatch
