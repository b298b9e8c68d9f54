import SerialDispatch.Proofs.Channel.Batches
import SerialDispatch.Proofs.Delivery.Clerk

/-!
# What can happen in a channel

Whatever a step does to a channel is a series of three kinds of `Move`: something changes that is
not about messages, a message is posted, or the next batch is taken from the mailbox and delivered.
A property that every move keeps holds after any steps: `Channel.moves_run`, `Channel.Moves.kept`.

As far as messages go delivery is a clerk's work, whose books are the callbacks, the calls and the
log of the channel: `Channel.clerk_deliverBatch`.
-/
namespace SerialDispatch

namespace ChannelHappening

def lost? : ChannelHappening → Option (Message Empty)
  | .lost m => some m
  | _ => none

/-- A message that was sent, whether or not delivery still took it. -/
def posted? : ChannelHappening → Option (Message Empty)
  | .sent m | .lost m => some m
  | _ => none

def logged? : ChannelHappening → Option LogEvent
  | .log entry => some entry.event
  | _ => none

end ChannelHappening

namespace Channel

/-- All messages ever sent, in order. -/
def posted (c : Channel) : List (Message Empty) := c.history.filterMap ChannelHappening.posted?

/-- The messages that were sent after delivery had ended. -/
def lost (c : Channel) : List (Message Empty) := c.history.filterMap ChannelHappening.lost?

/-- What was logged, apart from the times. -/
def logged (c : Channel) : List LogEvent := c.history.filterMap ChannelHappening.logged?

/-- The books of the delivery. -/
def clerk (c : Channel) : Clerk :=
  ⟨c.callbacks.listener?, c.told, c.logged, decide (c.phase ≠ .alive)⟩

variable {c d e : Channel}

@[simp] theorem posted_record (c : Channel) (h : ChannelHappening) :
    (c.record h).posted = c.posted ++ h.posted?.toList := by
  cases h <;> simp [posted, record, ChannelHappening.posted?]

@[simp] theorem lost_record (c : Channel) (h : ChannelHappening) :
    (c.record h).lost = c.lost ++ h.lost?.toList := by
  cases h <;> simp [lost, record, ChannelHappening.lost?]

@[simp] theorem logged_record (c : Channel) (h : ChannelHappening) :
    (c.record h).logged = c.logged ++ h.logged?.toList := by
  cases h <;> simp [logged, record, ChannelHappening.logged?]

theorem clerk_told (c : Channel) (callback : Nat) (e : Event) :
    (c.record (.told callback e)).clerk =
      { c.clerk with told := c.clerk.told ++ [(callback, e)] } := by
  simp only [clerk, told_record, logged_record, ChannelHappening.told?, ChannelHappening.logged?,
    Option.toList_some, Option.toList_none, List.append_nil]
  rfl

theorem clerk_log (c : Channel) (entry : LogRecord) :
    (c.record (.log entry)).clerk =
      { c.clerk with logged := c.clerk.logged ++ [entry.event] } := by
  simp only [clerk, told_record, logged_record, ChannelHappening.told?, ChannelHappening.logged?,
    Option.toList_some, Option.toList_none, List.append_nil]
  rfl

theorem clerk_record (c : Channel) {h : ChannelHappening} (told : h.told? = none)
    (logged : h.logged? = none) : (c.record h).clerk = c.clerk := by
  simp only [clerk, told_record, logged_record, told, logged, Option.toList_none, List.append_nil]
  rfl

/-- A panic leaves nobody in charge of anything. -/
theorem clerk_panic (c : Channel) :
    c.panic.clerk = { c.clerk with register := fun _ => none, halted := true } := rfl

theorem halted_iff (c : Channel) : c.clerk.halted = true ↔ c.phase ≠ .alive :=
  decide_eq_true_iff

theorem going_iff (c : Channel) : c.clerk.halted = false ↔ c.phase = .alive := by
  rw [clerk, decide_eq_false_iff_not, not_not]

section Posting

variable (c) (m : Message Empty)

theorem posted_send : (c.send m).posted = c.posted ++ [m] := by
  unfold send
  split <;> exact posted_record _ _

theorem clerk_send : (c.send m).clerk = c.clerk := by
  unfold send
  split <;> exact clerk_record _ rfl rfl

theorem mailbox_send :
    (c.send m).mailbox = if c.phase = .alive then c.mailbox ++ [m] else c.mailbox := by
  unfold send
  split <;> rfl

theorem coalescing_send : (c.send m).coalescing = c.coalescing := by
  unfold send
  split <;> rfl

end Posting

section Delivery

/-- An event is brought to its callback as a clerk handles it. -/
theorem clerk_deliverEvent (c : Channel) (e : Event) :
    (c.deliverEvent e).clerk = c.clerk.handle e := by
  unfold deliverEvent Clerk.handle
  cases hfind : c.callbacks.find? e.id with
  | none =>
    have nobody : c.clerk.register e.id = none := by
      show c.callbacks.listener? e.id = none
      rw [Callbacks.listener?, hfind]
      rfl
    rw [nobody]
    exact clerk_log c _
  | some callback =>
    have somebody : c.clerk.register e.id = some callback.listener := by
      show c.callbacks.listener? e.id = some callback.listener
      rw [Callbacks.listener?, hfind]
      rfl
    rw [somebody]
    dsimp only
    unfold Clerk.call
    by_cases panics : callback.panicsOn = some e.signal.trigger
    · rw [if_pos panics, if_pos (show callback.listener.panicsOn = _ from panics)]
      rw [clerk_panic, clerk_told]
      rfl
    · rw [if_neg panics, if_neg (show ¬ callback.listener.panicsOn = _ from panics)]
      have register : (c.callbacks.after e).listener? = fun other =>
          if e.signal.isFinished = true ∧ other = e.id then none
          else c.callbacks.listener? other :=
        funext fun other => Callbacks.listener_after other hfind
      rw [clerk_told]
      dsimp only [clerk]
      rw [register]
      rfl

theorem clerk_deliverEvents (alive : c.phase = .alive) (events : List Event) :
    (c.deliverEvents events).clerk =
      c.clerk.passAll (events.map .event : List (Message Empty)) := by
  induction events generalizing c with
  | nil => rfl
  | cons e rest ih =>
    have first : c.clerk.pass (.event e : Message Empty) = (c.deliverEvent e).clerk :=
      (Clerk.pass_event (c.going_iff.2 alive) e).trans (clerk_deliverEvent c e).symm
    rw [List.map_cons, Clerk.passAll, List.foldl_cons, first, deliverEvents]
    split
    · exact ih ‹_›
    · exact (Clerk.passAll_halted ((halted_iff _).2 ‹_›) _).symm

/-- Callbacks are registered as a clerk puts them in charge. -/
theorem register_registered (k : Clerk) {cs : Callbacks Empty}
    (register : k.register = cs.listener?)
    (batch : List (Message Empty)) :
    (k.registered batch).register = (Message.registered batch cs).listener? := by
  induction batch generalizing k cs with
  | nil => exact register
  | cons m rest ih =>
    cases m with
    | event e => exact ih k register
    | attach id callback =>
      refine ih (k.attach id callback.listener) (funext fun other => ?_)
      rw [Message.register, Callbacks.listener_attach, ← register]
      rfl

theorem clerk_deliverBatch (alive : c.phase = .alive) (batch rest : List (Message Empty)) :
    (c.deliverBatch batch rest).clerk = (c.clerk.registered batch).passAll
      ((Message.events c.coalescing batch).map .event : List (Message Empty)) := by
  have registered : clerk { c with
      mailbox := rest, callbacks := Message.registered batch c.callbacks } =
        c.clerk.registered batch := by
    rw [Clerk.registered_same, register_registered c.clerk rfl batch]
    rfl
  rw [← registered]
  exact clerk_deliverEvents (c := { c with
    mailbox := rest, callbacks := Message.registered batch c.callbacks }) alive _

theorem phase_deliverEvent (e : Event) : (c.deliverEvent e).phase = c.phase ∧
      (c.deliverEvent e).mailbox = c.mailbox ∨
    (c.deliverEvent e).phase = .panicked ∧ (c.deliverEvent e).mailbox = [] := by
  unfold deliverEvent
  split
  · exact .inl ⟨rfl, rfl⟩
  · dsimp only
    split
    · exact .inr ⟨rfl, rfl⟩
    · exact .inl ⟨rfl, rfl⟩

/-- A panic takes all that waits with it. -/
theorem phase_deliverEvents (alive : c.phase = .alive) (events : List Event) :
    (c.deliverEvents events).phase = .alive ∧ (c.deliverEvents events).mailbox = c.mailbox ∨
    (c.deliverEvents events).phase = .panicked ∧ (c.deliverEvents events).mailbox = [] := by
  induction events generalizing c with
  | nil => exact .inl ⟨alive, rfl⟩
  | cons e rest ih =>
    rw [deliverEvents]
    rcases phase_deliverEvent (c := c) e with ⟨phase, mailbox⟩ | ⟨phase, mailbox⟩
    · rw [if_pos (phase.trans alive), ← mailbox]
      exact ih (phase.trans alive)
    · rw [if_neg (by rw [phase]; decide)]
      exact .inr ⟨phase, mailbox⟩

theorem phase_deliverBatch (alive : c.phase = .alive) (batch rest : List (Message Empty)) :
    (c.deliverBatch batch rest).phase = .alive ∧ (c.deliverBatch batch rest).mailbox = rest ∨
    (c.deliverBatch batch rest).phase = .panicked ∧ (c.deliverBatch batch rest).mailbox = [] :=
  phase_deliverEvents (c := { c with
    mailbox := rest, callbacks := Message.registered batch c.callbacks }) alive _

/-- With an empty batch nothing happens. -/
theorem deliverBatch_nil (c : Channel) : c.deliverBatch [] c.mailbox = c := by
  have none : Message.events c.coalescing ([] : List (Message Empty)) = [] := by
    cases c.coalescing <;> rfl
  rw [deliverBatch, none]
  rfl

/-- Delivering neither sends nor loses anything. -/
theorem past_deliverEvents (c : Channel) (events : List Event) :
    (c.deliverEvents events).posted = c.posted ∧ (c.deliverEvents events).lost = c.lost := by
  induction events generalizing c with
  | nil => exact ⟨rfl, rfl⟩
  | cons e rest ih =>
    have first : (c.deliverEvent e).posted = c.posted ∧ (c.deliverEvent e).lost = c.lost := by
      unfold deliverEvent
      split
      · simp [ChannelHappening.posted?, ChannelHappening.lost?]
      · dsimp only
        split <;> simp [panic, record, posted, lost, ChannelHappening.posted?,
          ChannelHappening.lost?]
    rw [deliverEvents]
    split
    · exact ⟨(ih _).1.trans first.1, (ih _).2.trans first.2⟩
    · exact first

theorem past_deliverBatch (c : Channel) (batch rest : List (Message Empty)) :
    (c.deliverBatch batch rest).posted = c.posted ∧ (c.deliverBatch batch rest).lost = c.lost :=
  past_deliverEvents { c with
    mailbox := rest, callbacks := Message.registered batch c.callbacks } _

end Delivery

/-- One thing that happens in a channel, with the batch that is delivered if there is one. -/
inductive Move (c : Channel) : List (List (Message Empty)) → Channel → Prop
  | own (clock : Nat) (holding : Holding) (attached : Nat) (sinks : List (Option DispatchId)) :
      Move c [] { c with clock, holding, attached, sinks }
  | posted (m : Message Empty) : Move c [] (c.send m)
  | delivered {batch rest : List (Message Empty)} (alive : c.phase = .alive)
      (waiting : c.mailbox ≠ []) (next : Message.nextBatch c.coalescing c.mailbox = (batch, rest)) :
      Move c [batch] (c.deliverBatch batch rest)

/-- Moves from one channel to another, with the batches delivered on the way. -/
inductive Moves (c : Channel) : List (List (Message Empty)) → Channel → Prop
  | refl : Moves c [] c
  | tail {batches more : List (List (Message Empty))} {d e : Channel} (before : Moves c batches d)
      (move : Move d more e) : Moves c (batches ++ more) e

namespace Moves

variable {batches more : List (List (Message Empty))}

theorem single (move : Move c batches d) : Moves c batches d := .tail .refl move

theorem trans (first : Moves c batches d) (second : Moves d more e) :
    Moves c (batches ++ more) e := by
  induction second with
  | refl => rwa [List.append_nil]
  | tail before move ih =>
    rw [← List.append_assoc]
    exact .tail ih move

/-- What holds at first and is kept by every move holds at last. -/
theorem kept {P : List (List (Message Empty)) → Channel → Prop} (moves : Moves c batches d)
    (first : P [] c)
    (step : ∀ batches d more e, P batches d → Move d more e → P (batches ++ more) e) :
    P batches d := by
  induction moves with
  | refl => exact first
  | tail before move ih => exact step _ _ _ _ ih move

end Moves

section Steps

/-- After a panic nothing waits. -/
def Emptied (c : Channel) : Prop := c.phase ≠ .alive → c.mailbox = []

theorem Emptied.alive (emptied : c.Emptied) (waiting : c.mailbox ≠ []) : c.phase = .alive := by
  by_contra ended
  exact waiting (emptied ended)

theorem Emptied.move {batches : List (List (Message Empty))} (emptied : c.Emptied)
    (move : Move c batches d) : d.Emptied := by
  cases move with
  | own => exact emptied
  | posted m =>
    intro ended
    rw [phase_send] at ended
    rw [send, if_neg ended]
    exact emptied ended
  | delivered alive waiting next =>
    intro ended
    rcases phase_deliverBatch alive _ _ with ⟨phase, -⟩ | ⟨-, empty⟩
    · exact absurd phase ended
    · exact empty

theorem Emptied.moves {batches : List (List (Message Empty))} (emptied : c.Emptied)
    (moves : Moves c batches d) : d.Emptied :=
  moves.kept (P := fun _ d => d.Emptied) emptied fun _ _ _ _ before move => before.move move

theorem moves_deliverEach (plain : c.coalescing = false) {mailbox : List (Message Empty)}
    (waiting : c.mailbox = mailbox) (alive : mailbox ≠ [] → c.phase = .alive) :
    ∃ batches, Moves c batches (c.deliverEach mailbox) := by
  induction mailbox generalizing c with
  | nil => exact ⟨[], .refl⟩
  | cons m rest ih =>
    have going : c.phase = .alive := alive (List.cons_ne_nil _ _)
    have first : Move c [[m]] (c.deliverBatch [m] rest) :=
      .delivered going (by simp [waiting]) (by simp [Message.nextBatch, plain, waiting])
    rw [deliverEach]
    split
    · rename_i next
      have quiet := quiet_deliverBatch c [m] rest
      obtain ⟨batches, others⟩ := ih (c := c.deliverBatch [m] rest)
        (quiet.coalescing.trans plain) (quiet.phase next).2 fun _ => next
      exact ⟨_, (Moves.single first).trans others⟩
    · exact ⟨_, .single first⟩

theorem moves_drain (emptied : c.Emptied) : ∃ batches, Moves c batches c.drain := by
  unfold drain
  cases mode : c.coalescing with
  | false => exact moves_deliverEach mode rfl emptied.alive
  | true =>
    rw [if_pos rfl]
    by_cases waiting : c.mailbox = []
    · have same : c.deliverBatch c.mailbox [] = c := by
        have nothing := deliverBatch_nil c
        rwa [waiting] at nothing ⊢
      rw [same]
      exact ⟨[], .refl⟩
    · exact ⟨_, .single (.delivered (emptied.alive waiting) waiting (by simp [Message.nextBatch, mode]))⟩

theorem moves_through (c : Channel) (sink : Nat) (signal : Signal) :
    Moves c [] (c.through sink signal).1 := by
  unfold through
  split
  · exact .single (.posted _)
  · exact .refl

theorem moves_closed (c : Channel) : Moves c [] c.closed.1 := by
  unfold closed
  split
  · split
    · exact .single (.own c.clock .closed c.attached c.sinks)
    · exact .single (.own (c.clock + patience) c.holding c.attached c.sinks)
  · exact .single (.own c.clock .closed c.attached c.sinks)

theorem moves_step (emptied : c.Emptied) (step : ChannelStep) :
    ∃ batches, Moves c batches (c.step step).1 := by
  cases step with
  | attach id panicsOn =>
    simp only [Channel.step]
    split
    · exact ⟨_, (Moves.single (.own c.clock c.holding (c.attached + 1) c.sinks)).tail (.posted _)⟩
    · exact ⟨[], .refl⟩
  | sink id =>
    simp only [Channel.step]
    split
    · exact ⟨[], .single (.own c.clock c.holding c.attached (c.sinks ++ [some id]))⟩
    · exact ⟨[], .refl⟩
  | progress sink update => exact ⟨[], moves_through c sink _⟩
  | prevent sink => exact ⟨[], moves_through c sink _⟩
  | finish id outcome =>
    simp only [Channel.step]
    split
    · exact ⟨[], .single (.posted _)⟩
    · exact ⟨[], .refl⟩
  | dropSink sink =>
    simp only [Channel.step]
    split
    · exact ⟨[], .single (.own c.clock c.holding c.attached (c.sinks.set sink none))⟩
    · exact ⟨[], .refl⟩
  | flush =>
    obtain ⟨batches, drained⟩ := moves_drain emptied
    exact ⟨_, drained.tail
      (.own (c.drain.clock + 1) c.drain.holding c.drain.attached c.drain.sinks)⟩
  | close =>
    simp only [Channel.step]
    split
    · exact ⟨[], .refl⟩
    · have letGo : Moves c [] { c with holding := .closing } :=
        .single (.own c.clock .closing c.attached c.sinks)
      obtain ⟨batches, drained⟩ := moves_drain (emptied.moves letGo)
      exact ⟨_, (letGo.trans drained).trans (moves_closed _)⟩

theorem moves_run (emptied : c.Emptied) (steps : List ChannelStep) :
    ∃ batches, Moves c batches (c.run steps) := by
  induction steps generalizing c with
  | nil => exact ⟨[], .refl⟩
  | cons step rest ih =>
    obtain ⟨first, stepped⟩ := moves_step emptied step
    obtain ⟨others, moves⟩ := ih (emptied.moves stepped)
    exact ⟨_, stepped.trans moves⟩

theorem emptied_start (coalescing : Bool) : (start coalescing).Emptied := fun _ => rfl

end Steps
end Channel
end SerialDispatch
