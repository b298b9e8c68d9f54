import SerialDispatch.Proofs.Channel.Moves

/-!
# What the steps of a channel post

Which messages are posted in a channel follows from its steps alone, whatever has been delivered by
then: `Poster`. Who holds the channel may attach callbacks, make sinks and report that dispatches
are finished; signals are sent through sinks as long as these are held. Everything that is posted
is sent, in its order: `Channel.posted_run_start`. It is lost if delivery had ended before, and only
then: `Channel.lost_run`.
-/
namespace SerialDispatch

/-- The side of a channel on which messages are posted. -/
structure Poster where
  held : Bool
  attached : Nat
  sinks : List (Option DispatchId)
  posted : List (Message Empty)

namespace Poster

def start : Poster := ⟨true, 0, [], []⟩

def through (p : Poster) (sink : Nat) (signal : Signal) : List (Message Empty) :=
  p.sinks[sink]?.join.toList.map fun id => .event ⟨id, signal⟩

/-- The messages that a step posts. -/
def posts (p : Poster) : ChannelStep → List (Message Empty)
  | .attach id panicsOn => if p.held then [.attach id ⟨p.attached, panicsOn, []⟩] else []
  | .finish id outcome => if p.held then [.event ⟨id, .finished outcome⟩] else []
  | .progress sink update => p.through sink (.progress update)
  | .prevent sink => p.through sink .preventCancel
  | .sink _ | .dropSink _ | .flush | .close => []

/-- What a step changes besides. -/
def next (p : Poster) : ChannelStep → Poster
  | .attach .. => if p.held then { p with attached := p.attached + 1 } else p
  | .sink id => if p.held then { p with sinks := p.sinks ++ [some id] } else p
  | .dropSink sink => { p with sinks := p.sinks.set sink none }
  | .close => { p with held := false }
  | .finish .. | .progress .. | .prevent _ | .flush => p

def step (p : Poster) (step : ChannelStep) : Poster :=
  { p.next step with posted := p.posted ++ p.posts step }

def run (p : Poster) (steps : List ChannelStep) : Poster := steps.foldl step p

@[simp] theorem step_flush (p : Poster) : p.step .flush = p :=
  congrArg (Poster.mk _ _ _) (List.append_nil p.posted)

theorem run_filter (p : Poster) (steps : List ChannelStep) :
    p.run (steps.filter (· ≠ .flush)) = p.run steps := by
  induction steps generalizing p with
  | nil => rfl
  | cons step rest ih =>
    by_cases flush : step = .flush
    · rw [flush, List.filter_cons_of_neg (by simp), ih, run, run, List.foldl_cons, step_flush]
    · rw [List.filter_cons_of_pos (by simpa using flush)]
      exact ih (p.step step)

end Poster

namespace Channel

variable {c : Channel}

def poster (c : Channel) : Poster :=
  ⟨decide (c.holding = .held), c.attached, c.sinks, c.posted⟩

section Delivery

theorem poster_deliverBatch (c : Channel) (batch rest : List (Message Empty)) :
    (c.deliverBatch batch rest).poster = c.poster := by
  have sender := (quiet_deliverBatch c batch rest).sender
  have holding : (c.deliverBatch batch rest).holding = c.holding := congrArg Sender.holding sender
  have attached : (c.deliverBatch batch rest).attached = c.attached :=
    congrArg Sender.attached sender
  have sinks : (c.deliverBatch batch rest).sinks = c.sinks := congrArg Sender.sinks sender
  rw [poster, holding, attached, sinks, (past_deliverBatch c batch rest).1, poster]

/-- What no batch changes a drain does not change. -/
theorem kept_drain {α : Type} (f : Channel → α)
    (kept : ∀ c batch rest, f (deliverBatch c batch rest) = f c) (c : Channel) :
    f c.drain = f c := by
  have each (mailbox : List (Message Empty)) : f (c.deliverEach mailbox) = f c := by
    induction mailbox generalizing c with
    | nil => rfl
    | cons m rest ih =>
      rw [deliverEach]
      split
      · exact (ih _).trans (kept c [m] rest)
      · exact kept c [m] rest
  unfold drain
  split
  · exact kept c c.mailbox []
  · exact each c.mailbox

/-- Whatever is delivered, nothing is posted. -/
theorem poster_drain (c : Channel) : c.drain.poster = c.poster :=
  kept_drain poster poster_deliverBatch c

theorem lost_drain (c : Channel) : c.drain.lost = c.lost :=
  kept_drain lost (fun c batch rest => (past_deliverBatch c batch rest).2) c

end Delivery

section Steps

theorem poster_send (c : Channel) (m : Message Empty) :
    (c.send m).poster = { c.poster with posted := c.poster.posted ++ [m] } := by
  rw [poster, posted_send]
  unfold send
  split <;> rfl

theorem lost_send (c : Channel) (m : Message Empty) :
    (c.send m).lost = c.lost ++ if c.phase = .alive then [] else [m] := by
  unfold send
  split <;> exact lost_record _ _

theorem poster_through (c : Channel) (sink : Nat) (signal : Signal) :
    (c.through sink signal).1.poster =
      { c.poster with posted := c.poster.posted ++ c.poster.through sink signal } := by
  unfold through Poster.through
  rw [show c.poster.sinks[sink]?.join = c.sinkHeld sink from rfl]
  cases c.sinkHeld sink with
  | none => exact congrArg (Poster.mk _ _ _) (List.append_nil _).symm
  | some id => exact poster_send c _

theorem poster_closed (letGo : c.holding ≠ .held) : c.closed.1.poster = c.poster := by
  have same (holding : Holding) (still : holding ≠ .held) (clock : Nat) :
      poster { c with holding, clock } = c.poster := by
    rw [poster, poster, decide_eq_false still, decide_eq_false letGo]
    rfl
  unfold closed
  split
  · split
    · exact same .closed nofun c.clock
    · rfl
  · exact same .closed nofun c.clock

/-- A channel posts what its steps say, whatever it has delivered. -/
theorem poster_step (c : Channel) (step : ChannelStep) :
    (c.step step).1.poster = c.poster.step step := by
  have nothing : c.poster = { c.poster with posted := c.poster.posted ++ [] } :=
    congrArg (Poster.mk _ _ _) (List.append_nil _).symm
  have held : c.poster.held = true ↔ c.holding = .held := decide_eq_true_iff
  cases step with
  | attach id panicsOn =>
    rw [Channel.step, Poster.step, Poster.posts, Poster.next]
    simp only [held]
    split
    · exact poster_send { c with attached := c.attached + 1 } _
    · exact nothing
  | sink id =>
    rw [Channel.step, Poster.step, Poster.posts, Poster.next]
    simp only [held]
    split
    · exact congrArg (Poster.mk _ _ _) (List.append_nil _).symm
    · exact nothing
  | progress sink update => exact poster_through c sink _
  | prevent sink => exact poster_through c sink _
  | finish id outcome =>
    rw [Channel.step, Poster.step, Poster.posts, Poster.next]
    simp only [held]
    split
    · exact poster_send c _
    · exact nothing
  | dropSink sink =>
    rw [Channel.step, Poster.step, Poster.posts, Poster.next, List.append_nil]
    split
    · rfl
    · rw [List.set_eq_of_length_le (show c.poster.sinks.length ≤ sink from Nat.le_of_not_lt ‹_›)]
  | flush => exact (poster_drain c).trans c.poster.step_flush.symm
  | close =>
    rw [Channel.step, Poster.step, Poster.posts, Poster.next, List.append_nil]
    split
    · rename_i closed
      rw [poster, closed]
      rfl
    · have drained := poster_drain { c with holding := .closing }
      have letGo : (drain { c with holding := .closing }).holding ≠ .held := fun still => by
        have held := congrArg Poster.held drained
        rw [poster, still] at held
        cases held
      exact (poster_closed letGo).trans drained

theorem poster_run (c : Channel) (steps : List ChannelStep) :
    (c.run steps).poster = c.poster.run steps := by
  induction steps generalizing c with
  | nil => rfl
  | cons step rest ih =>
    exact (ih (c.step step).1).trans (congrArg (·.run rest) (poster_step c step))

/-- All that is ever posted is sent. -/
theorem posted_run_start (coalescing : Bool) (steps : List ChannelStep) :
    ((start coalescing).run steps).posted = (Poster.start.run steps).posted :=
  congrArg Poster.posted (poster_run (start coalescing) steps)

/-- The messages that are posted by steps after delivery has ended. -/
def postedLate (c : Channel) : List ChannelStep → List (Message Empty)
  | [] => []
  | step :: rest =>
    (if c.phase = .alive then [] else c.poster.posts step) ++ (c.step step).1.postedLate rest

theorem lost_through (c : Channel) (sink : Nat) (signal : Signal) :
    (c.through sink signal).1.lost =
      c.lost ++ if c.phase = .alive then [] else c.poster.through sink signal := by
  unfold through Poster.through
  rw [show c.poster.sinks[sink]?.join = c.sinkHeld sink from rfl]
  cases c.sinkHeld sink with
  | none => simp
  | some id => exact lost_send c _

theorem lost_closed (c : Channel) : c.closed.1.lost = c.lost := by
  unfold closed
  split
  · split <;> rfl
  · rfl

/-- What is posted is lost if delivery has ended before, and only then. -/
theorem lost_step (c : Channel) (step : ChannelStep) : (c.step step).1.lost =
    c.lost ++ if c.phase = .alive then [] else c.poster.posts step := by
  have nothing : c.lost = c.lost ++ if c.phase = .alive then [] else [] := by simp
  have held : c.poster.held = true ↔ c.holding = .held := decide_eq_true_iff
  cases step with
  | attach id panicsOn =>
    rw [Channel.step, Poster.posts]
    simp only [held]
    split
    · exact lost_send { c with attached := c.attached + 1 } _
    · exact nothing
  | sink id =>
    rw [Channel.step, Poster.posts, ← nothing]
    split <;> rfl
  | progress sink update => exact lost_through c sink _
  | prevent sink => exact lost_through c sink _
  | finish id outcome =>
    rw [Channel.step, Poster.posts]
    simp only [held]
    split
    · exact lost_send c _
    · exact nothing
  | dropSink sink =>
    rw [Channel.step, Poster.posts, ← nothing]
    split <;> rfl
  | flush => exact (lost_drain c).trans nothing
  | close =>
    rw [Channel.step, Poster.posts, ← nothing]
    split
    · rfl
    · exact (lost_closed _).trans (lost_drain { c with holding := .closing })

theorem lost_run (c : Channel) (steps : List ChannelStep) :
    (c.run steps).lost = c.lost ++ c.postedLate steps := by
  induction steps generalizing c with
  | nil => exact (List.append_nil _).symm
  | cons step rest ih =>
    refine (ih (c.step step).1).trans ?_
    rw [lost_step, List.append_assoc]
    rfl

end Steps
end Channel
end SerialDispatch
