import SerialDispatch.Proofs.Dispatcher.Chores

/-!
# Dealings with a session

Whoever gives a command, it comes down to a few dealings with the session, and delivery comes down
to calling callbacks and to the commands that they give. So what holds of these,
and of one after another, holds of every command and of all that is delivered. Main statements:
`Session.Dealings.perform`, `Session.carrying_deliverEvents`.
-/
namespace SerialDispatch
namespace Session

open Relation

/-- One dealing of a caller, or of whoever gives a command. -/
inductive Dealing : Session → Session → Prop
  /-- Starts are counted, ids and tokens are given out, and tokens are raised. -/
  | own {s t : Session} (same : t = { s with
      starts := t.starts, nextId := t.nextId, tokens := t.tokens }) : Dealing s t
  | sent (s : Session) (m : Message Command) : Dealing s (s.send m)
  | accepted {s : Session} {callback : Nat} {task : Task} {inbox : Inbox Task}
      (takes : s.inbox.submit task = .ok inbox) :
      Dealing s (({ s with inbox := inbox }.reach task (.submitted callback)).log
        (.dispatchQueued task.id task.request.kind))
  | refused {s : Session} {task : Task} {e : SubmitError}
      (refuses : s.inbox.submit task = .error e) :
      Dealing s (s.log (.dispatchRefused task.id task.request.kind e))
  | handed (s : Session) (handle : DispatchId × Token) :
      Dealing s { s with handles := s.handles ++ [handle] }
  | cancelled (s : Session) (id : DispatchId) : Dealing s (s.record (.cancelled id))
  | requested (s : Session) (id : DispatchId) : Dealing s (s.log (.cancellationRequested id))
  | stopped (s : Session) : Dealing s (s.signalStop .gone)

/-- One dealing after another. -/
def Dealings : Session → Session → Prop := ReflTransGen Dealing

namespace Dealings

variable {s t u : Session}

theorem refl (s : Session) : Dealings s s := ReflTransGen.refl

theorem trans (first : Dealings s t) (second : Dealings t u) : Dealings s u :=
  ReflTransGen.trans first second

theorem own (same : t = { s with
    starts := t.starts, nextId := t.nextId, tokens := t.tokens }) : Dealings s t :=
  .single (.own same)

theorem refuse (s : Session) (id : DispatchId) (token : Token) :
    Dealings s (s.refuse id token) :=
  have raised : Dealings s { s with tokens := s.tokens.cancel token } := own rfl
  raised.trans (.single (.sent _ _))

theorem submit (s : Session) (callback : Nat) (task : Task) :
    Dealings s (s.submit callback task) := by
  have handed : ∀ {u : Session}, Dealings s u →
      Dealings s { u with handles := u.handles ++ [(task.id, task.token)] } :=
    fun dealings => dealings.trans (.single (.handed _ _))
  unfold Session.submit
  refine handed ?_
  cases takes : s.inbox.submit task with
  | ok inbox => exact .single (.accepted takes)
  | error e => exact trans (.single (.refused takes)) (refuse _ _ _)

theorem startRequest (S : Setup) (s : Session) (request : Request) (input : CryptoInput)
    (surface : Surface) (callback : Callback Command) :
    Dealings s (s.startRequest S request input surface callback).1 := by
  have allotted : Dealings s s.allot := own rfl
  unfold Session.startRequest
  cases S.registry.resolve request.kind with
  | error refusal => exact refl s
  | ok factory =>
    dsimp only
    split
    · exact allotted
    · exact (allotted.trans (.single (.sent _ _))).trans (submit _ _ _)

theorem cancel (s : Session) (handle : Nat) : Dealings s (s.cancel handle).1 := by
  unfold Session.cancel
  cases s.handles[handle]? with
  | none => exact refl s
  | some pair =>
    obtain ⟨id, token⟩ := pair
    have raised : Dealings s { s with tokens := s.tokens.cancel token } := own rfl
    dsimp only
    split
    · exact .single (.cancelled s id)
    · exact (raised.trans (.single (.cancelled _ id))).trans (.single (.requested _ id))

theorem perform (S : Setup) (s : Session) (c : Command) : Dealings s (s.perform S c).1 := by
  cases c with
  | start request input surface panicsOn reactions =>
    have counted : Dealings s { s with starts := s.starts + 1 } := own rfl
    simp only [Session.perform]
    split
    · exact refl s
    · split
      · exact counted.trans (startRequest S _ _ _ _ _)
      · exact counted
  | cancel handle => exact cancel s handle
  | drop =>
    simp only [Session.perform]
    split
    · exact .single (.stopped s)
    · exact refl s
  | unreadable word fault => exact refl s

end Dealings

section Delivery

variable {S : Setup} {s : Session} {e : Event} {callback : Callback Command}

theorem deliverEvent_unclaimed (unknown : s.callbacks.find? e.id = none) :
    s.deliverEvent S e = s.log (.unclaimed e.id e.signal.trigger) := by
  unfold deliverEvent
  rw [unknown]

theorem deliverEvent_panics (found : s.callbacks.find? e.id = some callback)
    (panics : callback.panicsOn = some e.signal.trigger) : s.deliverEvent S e =
      ({ s with callbacks := s.callbacks.after e }.record
        (.told callback.number e)).panicDelivery := by
  unfold deliverEvent
  rw [found]
  exact if_pos panics

theorem deliverEvent_reacts (found : s.callbacks.find? e.id = some callback)
    (unmoved : callback.panicsOn ≠ some e.signal.trigger) : s.deliverEvent S e =
      (callback.reaction e.signal.trigger).foldl (react S callback.number)
        ({ s with callbacks := s.callbacks.after e }.record (.told callback.number e)) := by
  unfold deliverEvent
  rw [found]
  exact if_neg unmoved

/-- What can come of an event. -/
theorem deliverEvent_outcome (S : Setup) (s : Session) (e : Event) :
    (s.callbacks.find? e.id = none ∧
      s.deliverEvent S e = s.log (.unclaimed e.id e.signal.trigger)) ∨
    ∃ callback, s.callbacks.find? e.id = some callback ∧
      let told := { s with callbacks := s.callbacks.after e }.record (.told callback.number e)
      (callback.panicsOn = some e.signal.trigger ∧ s.deliverEvent S e = told.panicDelivery ∨
        callback.panicsOn ≠ some e.signal.trigger ∧ s.deliverEvent S e =
          (callback.reaction e.signal.trigger).foldl (react S callback.number) told) := by
  cases found : s.callbacks.find? e.id with
  | none => exact .inl ⟨rfl, deliverEvent_unclaimed found⟩
  | some callback =>
    refine .inr ⟨callback, rfl, ?_⟩
    by_cases panics : callback.panicsOn = some e.signal.trigger
    · exact .inl ⟨panics, deliverEvent_panics found panics⟩
    · exact .inr ⟨panics, deliverEvent_reacts found panics⟩

/-- What the delivery of one event keeps is kept when events are delivered one after another. -/
theorem deliverEvents_induct {motive : Session → Prop}
    (event : ∀ u e, motive u → motive (u.deliverEvent S e)) (events : List Event)
    (holds : motive s) : motive (s.deliverEvents S events) := by
  induction events generalizing s with
  | nil => exact holds
  | cons e rest ih =>
    have next := event s e holds
    unfold Session.deliverEvents
    dsimp only
    split
    · exact ih next
    · exact next

/-- One thing that delivery does to bring events to their callbacks. -/
inductive Carrying (S : Setup) : Session → Session → Prop
  | unclaimed (s : Session) (e : Event) :
      Carrying S s (s.log (.unclaimed e.id e.signal.trigger))
  | called (s : Session) (callback : Callback Command) (e : Event) :
      Carrying S s ({ s with callbacks := s.callbacks.after e }.record (.told callback.number e))
  | panicked (s : Session) : Carrying S s s.panicDelivery
  | reacted (s : Session) (callback : Nat) (c : Command) : Carrying S s (s.react S callback c)

theorem carrying_deliverEvent (S : Setup) (s : Session) (e : Event) :
    ReflTransGen (Carrying S) s (s.deliverEvent S e) := by
  have told := fun callback => ReflTransGen.single (Carrying.called (S := S) s callback e)
  rcases deliverEvent_outcome S s e with ⟨-, h⟩ | ⟨callback, -, ⟨-, h⟩ | ⟨-, h⟩⟩
  · rw [h]
    exact .single (.unclaimed s e)
  · rw [h]
    exact (told callback).tail (.panicked _)
  · rw [h]
    exact List.foldlRecOn _ _ (motive := (ReflTransGen (Carrying S) s ·)) (told callback)
      fun u carried c _ => carried.tail (.reacted u _ c)

theorem carrying_deliverEvents (S : Setup) (s : Session) (events : List Event) :
    ReflTransGen (Carrying S) s (s.deliverEvents S events) :=
  deliverEvents_induct (motive := (ReflTransGen (Carrying S) s ·))
    (fun u e carried => carried.trans (carrying_deliverEvent S u e)) events .refl

end Delivery

end Session
end SerialDispatch
