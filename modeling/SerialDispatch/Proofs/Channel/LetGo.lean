import SerialDispatch.Proofs.Channel.InCharge
import SerialDispatch.Proofs.Channel.Sinks
import SerialDispatch.Proofs.Delivery.Seams

/-!
# Channels without an owner

A channel that its owner has let go of goes on as long as a sink is held. Nobody is attached or
finished any more, so what is sent through sinks goes to the callbacks that are in charge:
`Channel.told_signals`.
-/
namespace SerialDispatch

/-- The calls to which events lead, one after the other: each goes to whoever is in charge of its
dispatch, until one of them panics. -/
def Listener.calls (inCharge : DispatchId → Option Listener) : List Event → List (Nat × Event)
  | [] => []
  | e :: rest =>
    match inCharge e.id with
    | none => calls inCharge rest
    | some l => (l.number, e) ::
        if l.panicsOn = some e.signal.trigger then [] else calls inCharge rest

namespace ChannelStep

/-- The signal that a step sends, if its sink is held. -/
def signal? (sinks : List (Option DispatchId)) : ChannelStep → Option Event
  | .progress n update => sinks[n]?.join.map (⟨·, .progress update⟩)
  | .prevent n => sinks[n]?.join.map (⟨·, .preventCancel⟩)
  | _ => none

/-- The sinks after a step, where no more are made. -/
def sinksLeft (sinks : List (Option DispatchId)) : ChannelStep → List (Option DispatchId)
  | .dropSink n => sinks.set n none
  | _ => sinks

/-- The signals that steps send through these sinks. -/
def signals (sinks : List (Option DispatchId)) : List ChannelStep → List Event
  | [] => []
  | step :: rest => (step.signal? sinks).toList ++ signals (step.sinksLeft sinks) rest

/-- Flushing sends no signal. -/
theorem signals_flush (sinks : List (Option DispatchId)) (steps : List ChannelStep) :
    signals sinks (steps ++ [.flush]) = signals sinks steps := by
  induction steps generalizing sinks with
  | nil => rfl
  | cons step rest ih => exact congrArg ((step.signal? sinks).toList ++ ·) (ih _)

theorem unfinished_signals {sinks : List (Option DispatchId)} {steps : List ChannelStep} :
    ∀ e ∈ signals sinks steps, e.signal.isFinished = false := by
  induction steps generalizing sinks with
  | nil => exact nofun
  | cons step rest ih =>
    intro e there
    rcases List.mem_append.1 there with now | later
    · rw [Option.mem_toList] at now
      cases step with
      | progress n update | prevent n =>
        rw [signal?] at now
        obtain ⟨id, -, rfl⟩ := Option.map_eq_some_iff.1 now
        rfl
      | _ => cases now
    · exact ih e later

end ChannelStep

/-- Of the events of some batches none is left out but superseded ones. -/
theorem Message.thinned_events {α : Type} (coalescing : Bool) (batches : List (List (Message α))) :
    Thinned Event.Superseded (batches.flatten.filterMap event?)
      (batches.map (events coalescing)).flatten := by
  have each : ∀ events : List Event, Thinned Event.Superseded events
      (if coalescing then Event.coalesce events else events) := by
    intro events
    split
    · exact Event.thinned_coalesce events
    · exact .refl events
  have all := Thinned.flatten each (batches.map (·.filterMap event?))
  rwa [List.map_map, ← List.filterMap_flatten] at all

namespace Clerk

variable {coalescing : Bool} {k : Clerk} {batch : List (Message Empty)}
  {batches : List (List (Message Empty))} {events : List Event}

theorem registered_of_events (events : ∀ m ∈ batch, m.registration? = none) :
    k.registered batch = k := by
  induction batch with
  | nil => rfl
  | cons m rest ih =>
    cases m with
    | attach id callback => cases events _ List.mem_cons_self
    | event e => exact ih fun m there => events m (List.mem_cons_of_mem _ there)

/-- Batches in which nobody is attached are handled as the events that are left of them. -/
theorem takeAll_of_events (events : ∀ m ∈ batches.flatten, m.registration? = none) :
    k.takeAll coalescing batches = k.passAll
      ((batches.map (Message.events coalescing)).flatten.map .event : List (Message Empty)) := by
  induction batches generalizing k with
  | nil => rfl
  | cons batch rest ih =>
    rw [List.flatten_cons] at events
    rw [List.map_cons, List.flatten_cons, List.map_append, passAll_append,
      ← ih fun m there => events m (List.mem_append_right _ there)]
    show (k.take coalescing batch).takeAll coalescing rest = _
    rw [take, registered_of_events fun m there => events m (List.mem_append_left _ there)]

/-- A clerk who is halted, or has nothing to do, stays as he is. -/
theorem take_idle (idle : k.halted = true ∨ batch = [])
    (events : ∀ m ∈ batch, m.registration? = none) : k.take coalescing batch = k := by
  rw [take, registered_of_events events]
  rcases idle with halted | rfl
  · exact passAll_halted halted _
  · cases coalescing <;> rfl

/-- As long as nobody is told his end those in charge stay the same. -/
theorem told_passAll_unfinished (going : k.halted = false)
    (unfinished : ∀ e ∈ events, e.signal.isFinished = false) :
    (k.passAll (events.map .event : List (Message Empty))).told =
      k.told ++ Listener.calls k.register events := by
  induction events generalizing k with
  | nil => exact (List.append_nil _).symm
  | cons e rest ih =>
    have others := fun f there => unfinished f (List.mem_cons_of_mem e there)
    rw [List.map_cons, passAll, List.foldl_cons, ← passAll, Listener.calls]
    cases register : k.register e.id with
    | none =>
      rw [pass_unclaimed going register]
      exact @ih { k with logged := _ } going others
    | some l =>
      rw [pass_claimed going register]
      dsimp only
      by_cases panics : l.panicsOn = some e.signal.trigger
      · have halted := (halted_call k l e).2 (.inl panics)
        rw [passAll_halted halted, (told_call k l e).1, if_pos panics]
      · have same : (k.call l e).register = k.register := by
          rw [call, if_neg panics]
          funext other
          simp [unfinished e List.mem_cons_self]
        have goesOn : (k.call l e).halted = false := by
          rw [← Bool.not_eq_true, halted_call, going]
          exact fun h => h.elim panics Bool.false_ne_true
        rw [ih goesOn others, same, (told_call k l e).1, if_neg panics, List.append_assoc]
        rfl

end Clerk

namespace Channel

variable {c : Channel}

section Draining

variable (c) (h : Holding)

/-- Who holds the channel makes no difference to delivery. -/
theorem deliverEvents_holding (events : List Event) :
    { c with holding := h }.deliverEvents events =
      { c.deliverEvents events with holding := h } := by
  induction events generalizing c with
  | nil => rfl
  | cons e rest ih =>
    have first : { c with holding := h }.deliverEvent e =
        { c.deliverEvent e with holding := h } := by
      unfold deliverEvent
      dsimp only
      cases c.callbacks.find? e.id with
      | none => rfl
      | some callback =>
        dsimp only
        split <;> rfl
    rw [deliverEvents, deliverEvents, first]
    dsimp only
    split
    · exact ih _
    · rfl

theorem deliverBatch_holding (batch rest : List (Message Empty)) :
    { c with holding := h }.deliverBatch batch rest =
      { c.deliverBatch batch rest with holding := h } :=
  deliverEvents_holding
    { c with mailbox := rest, callbacks := Message.registered batch c.callbacks } h _

theorem deliverEach_holding (mailbox : List (Message Empty)) :
    { c with holding := h }.deliverEach mailbox =
      { c.deliverEach mailbox with holding := h } := by
  induction mailbox generalizing c with
  | nil => rfl
  | cons m rest ih =>
    rw [deliverEach, deliverEach, deliverBatch_holding]
    dsimp only
    split
    · exact ih _
    · rfl

theorem drain_holding : { c with holding := h }.drain = { c.drain with holding := h } := by
  unfold drain
  dsimp only
  split
  · exact deliverBatch_holding c h c.mailbox []
  · exact deliverEach_holding c h c.mailbox

variable {c}

theorem mailbox_drain (emptied : c.Emptied) : c.drain.mailbox = [] := by
  by_cases alive : c.phase = .alive
  · unfold drain
    split
    · exact (phase_deliverBatch alive c.mailbox []).elim And.right And.right
    · exact mailbox_deliverEach rfl fun _ => alive
  · have nothing := emptied alive
    unfold drain
    rw [nothing]
    split
    · have same := deliverBatch_nil c
      rw [nothing] at same
      rw [same]
      exact nothing
    · exact nothing

theorem mailbox_flushed (emptied : c.Emptied) (steps : List ChannelStep) :
    (c.run (steps ++ [.flush])).mailbox = [] := by
  obtain ⟨_, moves⟩ := moves_run emptied steps
  rw [run_append]
  exact mailbox_drain (emptied.moves moves)

end Draining

section Afterwards

/-- What is still done to a channel is to its clock, and maybe to who holds it. -/
theorem closed_same (c : Channel) : ∃ holding clock, c.closed.1 = { c with holding, clock } ∧
    (c.holding ≠ .held → holding ≠ .held) := by
  unfold closed
  split
  · split
    · exact ⟨.closed, c.clock, rfl, fun _ => nofun⟩
    · exact ⟨c.holding, c.clock + patience, rfl, id⟩
  · exact ⟨.closed, c.clock, rfl, fun _ => nofun⟩

/-- The answers, by what they tell. -/
theorem answer_closed (c : Channel) :
    (c.closed.2 = .deliveryPanicked ↔ c.phase ≠ .alive) ∧
    (c.closed.2 = .ended ↔ c.phase = .alive ∧ c.noSinkHeld = true) ∧
    (c.closed.2 = .pending ↔ c.phase = .alive ∧ ¬ c.noSinkHeld = true) := by
  unfold closed
  split
  · split <;> simp [*]
  · simp [*]

/-- Closing an open channel is letting go of it and delivering what waits. -/
theorem step_close (open_ : c.holding ≠ .closed) : ∃ holding clock,
    (c.step .close).1 = { c.drain with holding, clock } ∧ holding ≠ .held := by
  rw [Channel.step, if_neg open_, drain_holding]
  obtain ⟨holding, clock, same, letGo⟩ := closed_same { c.drain with holding := .closing }
  exact ⟨holding, clock, same, letGo (by simp)⟩

theorem answer_close (open_ : c.holding ≠ .closed) :
    ((c.step .close).2 = .deliveryPanicked ↔ c.drain.phase ≠ .alive) ∧
    ((c.step .close).2 = .ended ↔ c.drain.phase = .alive ∧ c.drain.noSinkHeld = true) ∧
    ((c.step .close).2 = .pending ↔ c.drain.phase = .alive ∧ ¬ c.drain.noSinkHeld = true) := by
  rw [Channel.step, if_neg open_, drain_holding]
  exact answer_closed { c.drain with holding := .closing }

/-- Who does not hold a channel posts nothing but the signals that are sent through its sinks. -/
theorem poster_letGo {p : Poster} (letGo : p.held = false) (step : ChannelStep) : p.step step =
    { p with
      sinks := step.sinksLeft p.sinks
      posted := p.posted ++ (step.signal? p.sinks).toList.map .event } := by
  rw [Poster.step]
  cases step with
  | attach | sink | finish =>
    simp only [Poster.posts, Poster.next, letGo, Bool.false_eq_true, if_false]
    rfl
  | progress n update | prevent n =>
    rw [Poster.posts, Poster.through, ChannelStep.signal?]
    cases p.sinks[n]?.join <;> rfl
  | dropSink | flush => rfl
  | close =>
    rw [Poster.next, ← letGo]
    rfl

theorem posted_step (letGo : c.holding ≠ .held) (step : ChannelStep) :
    (c.step step).1.holding ≠ .held ∧
    (c.step step).1.sinks = step.sinksLeft c.sinks ∧
    (c.step step).1.posted = c.posted ++ (step.signal? c.sinks).toList.map .event := by
  have poster := (poster_step c step).trans (poster_letGo (decide_eq_false letGo) step)
  refine ⟨fun held => ?_, congrArg Poster.sinks poster, congrArg Poster.posted poster⟩
  have still := congrArg Poster.held poster
  rw [Channel.poster, held] at still
  exact letGo (of_decide_eq_true still.symm)

theorem posted_run (letGo : c.holding ≠ .held) (steps : List ChannelStep) :
    (c.run steps).posted = c.posted ++ (ChannelStep.signals c.sinks steps).map .event := by
  induction steps generalizing c with
  | nil => exact (List.append_nil _).symm
  | cons step rest ih =>
    obtain ⟨still, sinks, posted⟩ := posted_step letGo step
    have later := ih still
    rw [sinks, posted, List.append_assoc, ← List.map_append] at later
    exact later

variable {coalescing : Bool} {batches : List (List (Message Empty))} {steps : List ChannelStep}

/-- While delivery goes on in a channel that is not held any more, the signals that are sent through
its sinks get to the callbacks that are in charge, by the time when nothing waits. -/
theorem told_signals (moves : Moves (start coalescing) batches c) (numbered : c.Numbered)
    (alive : c.phase = .alive) (empty : c.mailbox = []) (letGo : c.holding ≠ .held) (left : (c.run steps).mailbox = []) :
    ∃ kept, Thinned Event.Superseded (ChannelStep.signals c.sinks steps) kept ∧
      (coalescing = false → kept = ChannelStep.signals c.sinks steps) ∧
      (c.run steps).told = c.told ++ Listener.calls c.inCharge kept := by
  obtain ⟨gone, before⟩ := reckoned_moves moves
  obtain ⟨more, further⟩ := moves_run before.emptied steps
  obtain ⟨swept, after⟩ := reckoned_moves (moves.trans further)
  have books : (c.run steps).clerk = c.clerk.takeAll coalescing more := by
    rw [after.books, before.books, Clerk.takeAll_append]
  have posted := posted_run letGo steps
  have unfinished := @ChannelStep.unfinished_signals c.sinks steps
  generalize ChannelStep.signals c.sinks steps = signals at posted unfinished ⊢
  generalize c.run steps = d at *
  -- What was posted is what the batches hold and what a panic has left of it.
  have whole : (more ++ [swept ++ d.lost]).flatten = signals.map .event := by
    obtain ⟨rfl, nothing⟩ := before.alive alive
    rw [after.posted, before.posted, empty, left, nothing] at posted
    simpa using posted
  have events : ∀ m ∈ (more ++ [swept ++ d.lost]).flatten, m.registration? = none := by
    rw [whole]
    intro m there
    obtain ⟨e, -, rfl⟩ := List.mem_map.1 there
    rfl
  have idle : d.clerk.halted = true ∨ swept ++ d.lost = [] := by
    by_cases going : d.phase = .alive
    · obtain ⟨rfl, nothing⟩ := after.alive going
      exact .inr nothing
    · exact .inl (d.halted_iff.2 going)
  have last : ∀ m ∈ swept ++ d.lost, m.registration? = none := fun m there =>
    events m (List.mem_flatten.2 ⟨_, List.mem_append_right _ List.mem_cons_self, there⟩)
  have taken : d.clerk = c.clerk.takeAll coalescing (more ++ [swept ++ d.lost]) := by
    rw [Clerk.takeAll_append, ← books]
    exact (Clerk.take_idle idle last).symm
  have same : ((more ++ [swept ++ d.lost]).flatten).filterMap Message.event? = signals := by
    rw [whole, List.filterMap_map]
    exact List.filterMap_some
  have thinned := Message.thinned_events coalescing (more ++ [swept ++ d.lost])
  rw [same] at thinned
  refine ⟨_, thinned, fun plain => ?_, ?_⟩
  · rw [plain, ← same, List.filterMap_flatten]
    rfl
  · show d.clerk.told = c.clerk.told ++ _
    rw [taken, Clerk.takeAll_of_events events, ← before.inCharge numbered alive empty]
    exact Clerk.told_passAll_unfinished (c.going_iff.2 alive)
      fun e there => unfinished e (thinned.sublist.subset there)

end Afterwards

end Channel
end SerialDispatch
