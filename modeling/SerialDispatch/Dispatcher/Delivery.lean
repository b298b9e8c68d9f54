import SerialDispatch.Dispatcher.Session

/-!
# Delivery within a dispatcher session

Delivery takes batch after batch from the mailbox: `Session.deliverRound`. A callback that is called
may perform its reaction, which may send more; whatever it sends comes in a later batch.
-/
namespace SerialDispatch.Session

/-- A callback panics: what waits is gone with the delivery. -/
def panicDelivery (s : Session) : Session :=
  { s with phase := .panicked, mailbox := [], callbacks := .none }

/-- A callback performs one command of its reaction. -/
def react (S : Setup) (callback : Nat) (s : Session) (c : Command) : Session :=
  (s.perform S c).1.record (.did callback c.word (s.perform S c).2)

/-- Brings one event to its callback. -/
def deliverEvent (S : Setup) (s : Session) (e : Event) : Session :=
  match s.callbacks.find? e.id with
  | none => s.log (.unclaimed e.id e.signal.trigger)
  | some callback =>
    let told := { s with callbacks := s.callbacks.after e }.record (.told callback.number e)
    if callback.panicsOn = some e.signal.trigger then told.panicDelivery
    else (callback.reaction e.signal.trigger).foldl (react S callback.number) told

/-- Brings events to their callbacks until one of them panics. -/
def deliverEvents (S : Setup) (s : Session) : List Event → Session
  | [] => s
  | e :: rest =>
    let next := s.deliverEvent S e
    if next.phase = .alive then next.deliverEvents S rest else next

/-- Delivers the next batch. -/
def deliverRound (S : Setup) (s : Session) : Session :=
  let batch := Message.nextBatch S.config.coalescing s.mailbox
  let taken := { s with
    mailbox := batch.2
    callbacks := Message.registered batch.1 s.callbacks
    turn := s.turn.delivered }
  taken.deliverEvents S (Message.events S.config.coalescing batch.1)

end SerialDispatch.Session
