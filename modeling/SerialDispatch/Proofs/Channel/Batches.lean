import SerialDispatch.Channel
import SerialDispatch.Proofs.Delivery.Relay

/-!
# What a channel delivers

A channel that is driven by itself is a relay with a mailbox, which its deliveries empty batch after
batch: `Channel.Relays`. What is sent does not depend on when it is delivered (`sender_run_congr`),
so a channel that coalesces tells the callbacks what another tells them that does not and that is
flushed at other points, but for superseded progress; main statement: `Channel.flushes_agree`.
-/
namespace SerialDispatch

namespace ChannelHappening

def sent? : ChannelHappening → Option (Message Empty)
  | .sent m => some m
  | _ => none

def told? : ChannelHappening → Option (Nat × Event)
  | .told callback e => some (callback, e)
  | _ => none

end ChannelHappening

namespace Channel

/-- The channel after some steps. -/
def run (c : Channel) (steps : List ChannelStep) : Channel :=
  steps.foldl (fun c step => (c.step step).1) c

/-- The messages that were sent while delivery took them. -/
def sent (c : Channel) : List (Message Empty) := c.history.filterMap ChannelHappening.sent?

/-- The calls of the callbacks. -/
def told (c : Channel) : List (Nat × Event) := c.history.filterMap ChannelHappening.told?

/-- What the sending of messages depends on, and what has been sent. -/
structure Sender where
  holding : Holding
  attached : Nat
  sinks : List (Option DispatchId)
  sent : List (Message Empty)

def sender (c : Channel) : Sender := ⟨c.holding, c.attached, c.sinks, c.sent⟩

variable {c d : Channel}

@[simp] theorem sent_record (c : Channel) (h : ChannelHappening) :
    (c.record h).sent = c.sent ++ h.sent?.toList := by
  cases h <;> simp [sent, record, ChannelHappening.sent?]

@[simp] theorem told_record (c : Channel) (h : ChannelHappening) :
    (c.record h).told = c.told ++ h.told?.toList := by
  cases h <;> simp [told, record, ChannelHappening.told?]

/-- Callbacks are registered as a relay knows them that was told of the same calls. -/
structure Follows (c : Channel) (r : Relay) : Prop where
  known : ∀ id, r.known id = c.callbacks.number? id
  told : c.told = r.told

/-- Between two channels nothing was sent, and nobody let go of anything. -/
structure Quiet (c d : Channel) : Prop where
  sender : d.sender = c.sender
  coalescing : d.coalescing = c.coalescing
  phase : d.phase = .alive → c.phase = .alive ∧ d.mailbox = c.mailbox

theorem Quiet.trans {e : Channel} (first : Quiet c d) (second : Quiet d e) : Quiet c e := by
  refine ⟨second.sender.trans first.sender, second.coalescing.trans first.coalescing, fun he => ?_⟩
  obtain ⟨hd, hm⟩ := second.phase he
  exact ⟨(first.phase hd).1, hm.trans (first.phase hd).2⟩

section Delivery

theorem quiet_deliverEvent (c : Channel) (e : Event) : Quiet c (c.deliverEvent e) := by
  unfold deliverEvent
  cases c.callbacks.find? e.id with
  | none => exact ⟨by simp [sender, record, sent, ChannelHappening.sent?], rfl, fun h => ⟨h, rfl⟩⟩
  | some callback =>
    have told : Quiet c ({ c with callbacks := c.callbacks.after e }.record
        (.told callback.number e)) :=
      ⟨by simp [sender, record, sent, ChannelHappening.sent?], rfl, fun h => ⟨h, rfl⟩⟩
    dsimp only
    split
    · exact ⟨told.sender, rfl, fun h => by cases h⟩
    · exact told

theorem quiet_deliverEvents (c : Channel) (events : List Event) :
    Quiet c (c.deliverEvents events) := by
  induction events generalizing c with
  | nil => exact ⟨rfl, rfl, fun h => ⟨h, rfl⟩⟩
  | cons e rest ih =>
    simp only [deliverEvents]
    split
    · exact (quiet_deliverEvent c e).trans (ih _)
    · exact quiet_deliverEvent c e

theorem Follows.deliverEvent {r : Relay} (follows : c.Follows r) {e : Event}
    (alive : (c.deliverEvent e).phase = .alive) :
    (c.deliverEvent e).Follows (r.pass (.event e : Message Empty)) := by
  unfold Channel.deliverEvent at *
  cases hfind : c.callbacks.find? e.id with
  | none =>
    have unknown : r.known e.id = none := by rw [follows.known, Callbacks.number?, hfind]; rfl
    rw [Relay.pass_unknown r unknown]
    exact ⟨follows.known, by simp [follows.told, ChannelHappening.told?]⟩
  | some callback =>
    have known : r.known e.id = some callback.number := by
      rw [follows.known, Callbacks.number?, hfind]
      rfl
    simp only [hfind] at alive ⊢
    by_cases hp : callback.panicsOn = some e.signal.trigger
    · rw [if_pos hp] at alive
      cases alive
    · rw [if_neg hp]
      refine ⟨fun id => ?_, ?_⟩
      · rw [Relay.known_pass, follows.known]
        exact (Callbacks.number_after id hfind).symm
      · rw [Relay.told_pass r known, told_record, ← follows.told]
        rfl

theorem Follows.deliverEvents {r : Relay} (follows : c.Follows r) {events : List Event}
    (alive : (c.deliverEvents events).phase = .alive) :
    (c.deliverEvents events).Follows (r.passAll (events.map .event : List (Message Empty))) := by
  induction events generalizing c r with
  | nil => exact follows
  | cons e rest ih =>
    simp only [Channel.deliverEvents] at alive ⊢
    split at alive
    · rename_i next
      rw [if_pos next]
      exact ih (follows.deliverEvent next) alive
    · exact absurd alive ‹_›

theorem Follows.deliverBatch {r : Relay} (follows : c.Follows r)
    {batch rest : List (Message Empty)} (alive : (c.deliverBatch batch rest).phase = .alive) :
    (c.deliverBatch batch rest).Follows (r.passBatch c.coalescing batch) := by
  have registered : Follows { c with
      mailbox := rest
      callbacks := Message.registered batch c.callbacks } (batch.foldl Relay.register r) :=
    ⟨Relay.known_registered follows.known batch,
      by rw [Relay.told_foldl_register]; exact follows.told⟩
  exact registered.deliverEvents alive

theorem quiet_deliverBatch (c : Channel) (batch rest : List (Message Empty)) :
    Quiet { c with mailbox := rest } (c.deliverBatch batch rest) := by
  have delivered := quiet_deliverEvents { c with
    mailbox := rest
    callbacks := Message.registered batch c.callbacks } (Message.events c.coalescing batch)
  exact ⟨delivered.sender, delivered.coalescing, delivered.phase⟩

/-- The batches were taken from the mailbox, in order, and passed on as a relay does. -/
structure Relays (coalescing : Bool) (c : Channel) (batches : List (List (Message Empty))) :
    Prop where
  mode : c.coalescing = coalescing
  sent : c.sent = batches.flatten ++ c.mailbox
  follows : c.Follows (Relay.start.passBatches coalescing batches)

variable {coalescing : Bool} {batches : List (List (Message Empty))}

/-- A batch is taken from the mailbox and delivered. -/
theorem Relays.deliverBatch (relays : Relays coalescing c batches)
    {batch rest : List (Message Empty)} (mailbox : c.mailbox = batch ++ rest)
    (alive : (c.deliverBatch batch rest).phase = .alive) :
    Relays coalescing (c.deliverBatch batch rest) (batches ++ [batch]) := by
  have quiet := quiet_deliverBatch c batch rest
  have sent : (c.deliverBatch batch rest).sent = c.sent := congrArg Sender.sent quiet.sender
  have left : (c.deliverBatch batch rest).mailbox = rest := (quiet.phase alive).2
  refine ⟨quiet.coalescing.trans relays.mode, ?_, ?_⟩
  · rw [sent, relays.sent, left, mailbox]
    simp
  · have follows := relays.follows.deliverBatch alive
    rw [relays.mode] at follows
    rw [Relay.passBatches_append]
    exact follows

/-- Message by message is in batches of one message each. -/
theorem Relays.deliverEach {mailbox : List (Message Empty)} (relays : Relays coalescing c batches)
    (waiting : c.mailbox = mailbox) (alive : (c.deliverEach mailbox).phase = .alive) :
    (c.deliverEach mailbox).mailbox = [] ∧
      ∃ more, Relays coalescing (c.deliverEach mailbox) (batches ++ more) := by
  induction mailbox generalizing c batches with
  | nil => exact ⟨waiting, [], by rw [List.append_nil]; exact relays⟩
  | cons m rest ih =>
    simp only [Channel.deliverEach] at alive ⊢
    split at alive
    · rename_i next
      rw [if_pos next]
      obtain ⟨empty, more, after⟩ := ih (relays.deliverBatch waiting next)
        ((quiet_deliverBatch c [m] rest).phase next).2 alive
      exact ⟨empty, [m] :: more, by rwa [List.append_assoc] at after⟩
    · exact absurd alive ‹_›

theorem Relays.drain (relays : Relays coalescing c batches) (alive : c.drain.phase = .alive) :
    c.drain.mailbox = [] ∧ ∃ more, Relays coalescing c.drain (batches ++ more) := by
  unfold Channel.drain at *
  cases hc : c.coalescing with
  | true =>
    simp only [hc, if_true] at alive ⊢
    exact ⟨((quiet_deliverBatch c c.mailbox []).phase alive).2, [c.mailbox],
      relays.deliverBatch (List.append_nil _).symm alive⟩
  | false =>
    simp only [hc, Bool.false_eq_true, if_false] at alive ⊢
    exact relays.deliverEach rfl alive

theorem quiet_deliverEach (c : Channel) (mailbox : List (Message Empty)) :
    (c.deliverEach mailbox).sender = c.sender ∧
      ((c.deliverEach mailbox).phase = .alive → c.phase = .alive) := by
  induction mailbox generalizing c with
  | nil => exact ⟨rfl, id⟩
  | cons m rest ih =>
    obtain ⟨hsender, -, hphase⟩ := quiet_deliverBatch c [m] rest
    simp only [deliverEach]
    split
    · rename_i next
      exact ⟨(ih _).1.trans hsender, fun _ => (hphase next).1⟩
    · exact ⟨hsender, fun h => (hphase h).1⟩

/-- Whatever is delivered, what is sent does not depend on it. -/
theorem quiet_drain (c : Channel) : c.drain.sender = c.sender ∧
    (c.drain.phase = .alive → c.phase = .alive) := by
  unfold drain
  split
  · obtain ⟨hsender, -, hphase⟩ := quiet_deliverBatch c c.mailbox []
    exact ⟨hsender, fun h => (hphase h).1⟩
  · exact quiet_deliverEach c c.mailbox

end Delivery

section Steps

theorem phase_send (c : Channel) (m : Message Empty) : (c.send m).phase = c.phase := by
  unfold send
  split <;> rfl

theorem phase_through (c : Channel) (sink : Nat) (signal : Signal) :
    (c.through sink signal).1.phase = c.phase := by
  unfold through
  split
  · exact phase_send _ _
  · rfl

theorem phase_closed (c : Channel) : c.closed.1.phase = c.phase := by
  unfold closed
  split
  · split <;> rfl
  · rfl

/-- A delivery that has ended does not begin again. -/
theorem alive_of_step {step : ChannelStep} (alive : (c.step step).1.phase = .alive) :
    c.phase = .alive := by
  cases step with
  | attach id panicsOn =>
    simp only [step] at alive
    split at alive
    · rwa [phase_send] at alive
    · exact alive
  | sink id =>
    simp only [step] at alive
    split at alive <;> exact alive
  | progress sink update => exact (phase_through c sink _).symm.trans alive
  | prevent sink => exact (phase_through c sink _).symm.trans alive
  | finish id outcome =>
    simp only [step] at alive
    split at alive
    · rwa [phase_send] at alive
    · exact alive
  | dropSink sink =>
    simp only [step] at alive
    split at alive <;> exact alive
  | flush => exact (quiet_drain c).2 alive
  | close =>
    simp only [step] at alive
    split at alive
    · exact alive
    · rw [phase_closed] at alive
      exact (quiet_drain { c with holding := .closing }).2 alive

theorem alive_of_run {steps : List ChannelStep} (alive : (c.run steps).phase = .alive) :
    c.phase = .alive := by
  induction steps generalizing c with
  | nil => exact alive
  | cons step rest ih => exact alive_of_step (ih (c := (c.step step).1) alive)

/-- Between two channels messages were sent, and none was delivered. -/
structure Posts (c d : Channel) : Prop where
  coalescing : d.coalescing = c.coalescing
  callbacks : d.callbacks = c.callbacks
  told : d.told = c.told
  mail : ∃ sent, d.sent = c.sent ++ sent ∧ d.mailbox = c.mailbox ++ sent

theorem Posts.frame (coalescing : d.coalescing = c.coalescing)
    (callbacks : d.callbacks = c.callbacks)
    (past : (d.history, d.mailbox) = (c.history, c.mailbox)) : Posts c d := by
  obtain ⟨history, mailbox⟩ := Prod.mk.inj past
  refine ⟨coalescing, callbacks, ?_, [], ?_, ?_⟩
  · rw [Channel.told, Channel.told, history]
  · rw [Channel.sent, Channel.sent, history, List.append_nil]
  · rw [mailbox, List.append_nil]

theorem Posts.refl (c : Channel) : Posts c c := .frame rfl rfl rfl

theorem posts_closed (c : Channel) : Posts c c.closed.1 := by
  unfold closed
  split
  · split <;> exact .frame rfl rfl rfl
  · exact .frame rfl rfl rfl

theorem posts_send (alive : c.phase = .alive) (m : Message Empty) : Posts c (c.send m) := by
  unfold send
  rw [if_pos alive]
  exact ⟨rfl, rfl, by simp [told, record, ChannelHappening.told?], [m],
    by simp [sent, record, ChannelHappening.sent?], rfl⟩

theorem posts_through (alive : c.phase = .alive) (sink : Nat) (signal : Signal) :
    Posts c (c.through sink signal).1 := by
  unfold through
  split
  · exact posts_send alive _
  · exact .refl c

variable {coalescing : Bool} {batches : List (List (Message Empty))}

theorem Relays.posts (relays : Relays coalescing c batches) (posts : Posts c d) :
    Relays coalescing d batches := by
  obtain ⟨sent, hsent, hmailbox⟩ := posts.mail
  refine ⟨posts.coalescing.trans relays.mode, ?_, fun id => ?_, ?_⟩
  · rw [hsent, relays.sent, hmailbox, List.append_assoc]
  · rw [posts.callbacks]
    exact relays.follows.known id
  · rw [posts.told]
    exact relays.follows.told

/-- As long as delivery goes on a channel stays a relay, whatever is done with it. -/
theorem Relays.step (relays : Relays coalescing c batches) {step : ChannelStep}
    (alive : (c.step step).1.phase = .alive) :
    ∃ more, Relays coalescing (c.step step).1 (batches ++ more) := by
  have hc := alive_of_step alive
  have posted : Posts c (c.step step).1 →
      ∃ more, Relays coalescing (c.step step).1 (batches ++ more) :=
    fun posts => ⟨[], by rw [List.append_nil]; exact relays.posts posts⟩
  cases step with
  | attach id panicsOn =>
    refine posted ?_
    simp only [Channel.step]
    split
    · obtain ⟨mode, callbacks, told, mail⟩ := posts_send
        (c := { c with attached := c.attached + 1 }) hc (.attach id ⟨c.attached, panicsOn, []⟩)
      exact ⟨mode, callbacks, told, mail⟩
    · exact .refl c
  | sink id =>
    refine posted ?_
    simp only [Channel.step]
    split
    · exact .frame rfl rfl rfl
    · exact .refl c
  | progress sink update => exact posted (posts_through hc sink _)
  | prevent sink => exact posted (posts_through hc sink _)
  | finish id outcome =>
    refine posted ?_
    simp only [Channel.step]
    split
    · exact posts_send hc _
    · exact .refl c
  | dropSink sink =>
    refine posted ?_
    simp only [Channel.step]
    split
    · exact .frame rfl rfl rfl
    · exact .refl c
  | flush =>
    obtain ⟨-, more, after⟩ := relays.drain alive
    exact ⟨more, after.posts (.frame rfl rfl rfl)⟩
  | close =>
    simp only [Channel.step] at alive ⊢
    split
    · exact ⟨[], by rw [List.append_nil]; exact relays⟩
    · rename_i going
      rw [if_neg going, phase_closed] at alive
      have letGo : Relays coalescing { c with holding := .closing } batches :=
        relays.posts (.frame rfl rfl rfl)
      obtain ⟨-, more, after⟩ := letGo.drain alive
      exact ⟨more, after.posts (posts_closed _)⟩

theorem Relays.run {steps : List ChannelStep} (relays : Relays coalescing c batches)
    (alive : (c.run steps).phase = .alive) :
    ∃ more, Relays coalescing (c.run steps) (batches ++ more) := by
  induction steps generalizing c batches with
  | nil => exact ⟨[], by rw [List.append_nil]; exact relays⟩
  | cons step rest ih =>
    obtain ⟨first, next⟩ := relays.step (@alive_of_run _ rest alive)
    obtain ⟨more, after⟩ := ih next alive
    exact ⟨first ++ more, by rwa [← List.append_assoc]⟩

theorem sender_eq (holding : d.holding = c.holding) (attached : d.attached = c.attached)
    (sinks : d.sinks = c.sinks) (sent : d.sent = c.sent) : d.sender = c.sender := by
  rw [sender, holding, attached, sinks, sent, sender]

/-- What a message does to the sending side does not depend on the mailbox. -/
theorem sender_send_congr (same : d.sender = c.sender) (hc : c.phase = .alive)
    (hd : d.phase = .alive) (m : Message Empty) : (d.send m).sender = (c.send m).sender := by
  have sent : d.sent = c.sent := congrArg Sender.sent same
  unfold send
  rw [if_pos hc, if_pos hd]
  refine sender_eq (congrArg Sender.holding same) (congrArg Sender.attached same)
    (congrArg Sender.sinks same) ?_
  rw [sent_record, sent_record]
  exact congrArg (· ++ [m]) sent

theorem sender_through_congr (same : d.sender = c.sender) (hc : c.phase = .alive)
    (hd : d.phase = .alive) (sink : Nat) (signal : Signal) :
    (d.through sink signal).1.sender = (c.through sink signal).1.sender := by
  have held : d.sinkHeld sink = c.sinkHeld sink := by
    rw [sinkHeld, sinkHeld, show d.sinks = c.sinks from congrArg Sender.sinks same]
  unfold through
  rw [held]
  cases c.sinkHeld sink with
  | none => exact same
  | some id => exact sender_send_congr same hc hd _

theorem sender_closed_congr (same : d.sender = c.sender) (hc : c.phase = .alive)
    (hd : d.phase = .alive) : d.closed.1.sender = c.closed.1.sender := by
  have attached : d.attached = c.attached := congrArg Sender.attached same
  have sinks : d.sinks = c.sinks := congrArg Sender.sinks same
  have sent : d.sent = c.sent := congrArg Sender.sent same
  have noSink : d.noSinkHeld = c.noSinkHeld := by rw [noSinkHeld, noSinkHeld, sinks]
  unfold closed
  rw [if_pos hc, if_pos hd, noSink]
  split
  · exact sender_eq rfl attached sinks sent
  · exact sender_eq (congrArg Sender.holding same) attached sinks sent

/-- What a step does to the sending side does not depend on what was delivered before. -/
theorem sender_step_congr {step : ChannelStep} (same : d.sender = c.sender)
    (hc : (c.step step).1.phase = .alive) (hd : (d.step step).1.phase = .alive) :
    (d.step step).1.sender = (c.step step).1.sender := by
  have holding : d.holding = c.holding := congrArg Sender.holding same
  have attached : d.attached = c.attached := congrArg Sender.attached same
  have sinks : d.sinks = c.sinks := congrArg Sender.sinks same
  have sent : d.sent = c.sent := congrArg Sender.sent same
  have hc' := alive_of_step hc
  have hd' := alive_of_step hd
  cases step with
  | attach id panicsOn =>
    by_cases held : c.holding = .held
    · have counted : sender { d with attached := d.attached + 1 } =
          sender { c with attached := c.attached + 1 } :=
        sender_eq holding (congrArg (· + 1) attached) sinks sent
      simp only [step]
      rw [if_pos held, if_pos (holding.trans held), attached]
      rw [attached] at counted
      exact sender_send_congr counted hc' hd' _
    · simp only [step]
      rw [if_neg held, if_neg fun h => held (holding.symm.trans h)]
      exact same
  | sink id =>
    by_cases held : c.holding = .held
    · simp only [step]
      rw [if_pos held, if_pos (holding.trans held)]
      exact sender_eq holding attached (congrArg (· ++ [some id]) sinks) sent
    · simp only [step]
      rw [if_neg held, if_neg fun h => held (holding.symm.trans h)]
      exact same
  | progress sink update => exact sender_through_congr same hc' hd' sink _
  | prevent sink => exact sender_through_congr same hc' hd' sink _
  | finish id outcome =>
    simp only [step, holding]
    split
    · exact sender_send_congr same hc' hd' _
    · exact same
  | dropSink sink =>
    simp only [step, sinks]
    split
    · exact sender_eq holding attached rfl sent
    · exact same
  | flush => exact (quiet_drain d).1.trans (same.trans (quiet_drain c).1.symm)
  | close =>
    simp only [step, holding] at hc hd ⊢
    split
    · exact same
    · rename_i going
      rw [if_neg going, phase_closed] at hc hd
      have letGo : sender { d with holding := .closing } = sender { c with holding := .closing } :=
        sender_eq rfl attached sinks sent
      exact sender_closed_congr
        ((quiet_drain _).1.trans (letGo.trans (quiet_drain _).1.symm)) hc hd

theorem sender_flushes {steps : List ChannelStep} (flushes : ∀ step ∈ steps, step = .flush) :
    (c.run steps).sender = c.sender := by
  induction steps generalizing c with
  | nil => rfl
  | cons step rest ih =>
    have first : step = .flush := flushes step List.mem_cons_self
    subst first
    exact (ih fun s hs => flushes s (List.mem_cons_of_mem _ hs)).trans (quiet_drain c).1

theorem run_append (c : Channel) (first second : List ChannelStep) :
    c.run (first ++ second) = (c.run first).run second := List.foldl_append

/-- What is sent does not depend on where deliveries fall. -/
theorem sender_run_congr {first second : List ChannelStep}
    (same : first.filter (· ≠ .flush) = second.filter (· ≠ .flush)) (start : d.sender = c.sender)
    (hc : (c.run first).phase = .alive) (hd : (d.run second).phase = .alive) :
    (d.run second).sender = (c.run first).sender := by
  induction first generalizing second c d with
  | nil =>
    have flushes : ∀ step ∈ second, step = .flush := by
      simpa using List.filter_eq_nil_iff.1 same.symm
    exact (sender_flushes flushes).trans start
  | cons step rest ih =>
    by_cases hs : step = .flush
    · subst hs
      rw [List.filter_cons_of_neg (by simp)] at same
      exact ih same (start.trans (quiet_drain c).1.symm) hc hd
    · rw [List.filter_cons_of_pos (by simpa using hs)] at same
      obtain ⟨before, after, rfl, flushes, -, later⟩ := List.filter_eq_cons_iff.1 same.symm
      have flushes : ∀ step ∈ before, step = .flush := by simpa using flushes
      rw [run_append] at hd ⊢
      have flushed : (d.run before).sender = c.sender := (sender_flushes flushes).trans start
      have stepped := sender_step_congr flushed (@alive_of_run _ rest hc) (@alive_of_run _ after hd)
      have agreed := ih later.symm stepped hc hd
      exact agreed

end Steps

theorem relays_start (coalescing : Bool) : Relays coalescing (start coalescing) [] :=
  ⟨rfl, rfl, fun _ => rfl, rfl⟩

/-- A channel that was flushed last has told all that was sent. -/
theorem told_flushed {coalescing : Bool} {steps : List ChannelStep}
    (alive : ((start coalescing).run (steps ++ [.flush])).phase = .alive) :
    ∃ batches, ((start coalescing).run (steps ++ [.flush])).sent = batches.flatten ∧
      ((start coalescing).run (steps ++ [.flush])).told =
        (Relay.start.passBatches coalescing batches).told := by
  rw [run_append] at alive ⊢
  obtain ⟨batches, before⟩ := (relays_start coalescing).run (@alive_of_run _ [.flush] alive)
  obtain ⟨empty, more, -, sent, follows⟩ := before.drain alive
  rw [empty, List.append_nil] at sent
  exact ⟨[] ++ batches ++ more, sent, follows.told⟩

/-- Two channels are used in the same way but for the points at which they are flushed, of which the
last is at the end. One of them coalesces and the other does not. If at most one callback is
attached for every dispatch, before any signal of it is sent, and no callback panics, then the one
that coalesces tells part of what the other tells, in the same order, and whatever it leaves out
would be left out by coalescing all that the other tells. -/
theorem flushes_agree {first second : List ChannelStep}
    (same : first.filter (· ≠ .flush) = second.filter (· ≠ .flush))
    (announced : Announced ((start false).run (first ++ [.flush])).sent)
    (plain : ((start false).run (first ++ [.flush])).phase = .alive)
    (coalescing : ((start true).run (second ++ [.flush])).phase = .alive) :
    List.Sublist ((start true).run (second ++ [.flush])).told
      ((start false).run (first ++ [.flush])).told ∧
    Event.coalesce (((start true).run (second ++ [.flush])).told.map Prod.snd) =
      Event.coalesce (((start false).run (first ++ [.flush])).told.map Prod.snd) := by
  have sent : ((start true).run (second ++ [.flush])).sent =
      ((start false).run (first ++ [.flush])).sent := by
    refine congrArg Sender.sent (sender_run_congr (c := start false) (d := start true) ?_ rfl plain
      coalescing)
    rw [List.filter_append, List.filter_append, same]
  obtain ⟨batches, hfirst, hplain⟩ := told_flushed plain
  obtain ⟨others, hsecond, hcoalescing⟩ := told_flushed coalescing
  rw [hfirst] at announced
  have flat : others.flatten = batches.flatten := by rw [← hsecond, sent, hfirst]
  rw [← flat] at announced
  have thinned := (Relay.passBatches_thinned announced (r := Relay.start) rfl (.refl _) true).2
  rw [flat] at announced
  rw [flat, Relay.passAll_flatten _ announced, ← hplain, ← hcoalescing] at thinned
  exact ⟨thinned.sublist, (Event.coalesce_congr (thinned.map fun _ _ h => h.2)).symm⟩

/-- Two dispatches share a channel; the first has two sinks, and goes on after its end. -/
def exchange : List ChannelStep :=
  [.attach 1 none, .sink 1, .sink 1, .progress 0 ⟨none, 1, 4⟩, .progress 1 ⟨none, 2, 4⟩,
    .attach 2 none, .sink 2, .progress 0 ⟨none, 3, 4⟩, .finish 1 .cancelledBeforeStart,
    .progress 2 ⟨none, 1, 9⟩, .progress 1 ⟨none, 4, 4⟩, .progress 2 ⟨none, 2, 9⟩, .prevent 2,
    .finish 1 .cancelledBeforeStart]

/-- One progress is left out. The end of a batch keeps another, and a signal that is for nobody
keeps a third. -/
theorem flushes_agree_of_exchange :
    ((start false).run (exchange ++ [.flush])).told.length = 7 ∧
    ((start true).run (exchange.take 7 ++ .flush :: exchange.drop 7 ++ [.flush])).told.length = 6 ∧
    List.Sublist
      ((start true).run (exchange.take 7 ++ .flush :: exchange.drop 7 ++ [.flush])).told
      ((start false).run (exchange ++ [.flush])).told ∧
    Event.coalesce (((start true).run
        (exchange.take 7 ++ .flush :: exchange.drop 7 ++ [.flush])).told.map Prod.snd) =
      Event.coalesce (((start false).run (exchange ++ [.flush])).told.map Prod.snd) := by
  refine ⟨by decide +kernel, by decide +kernel, ?_⟩
  exact flushes_agree (by decide +kernel) (by decide +kernel) (by decide +kernel)
    (by decide +kernel)

end Channel
end SerialDispatch
