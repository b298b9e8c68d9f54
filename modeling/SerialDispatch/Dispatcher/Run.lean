import SerialDispatch.Proofs.Dispatcher.Load

/-!
# Running a dispatcher session

`Session.run` does all that is to be done before a given time, `Session.runUntil` all that is to be
done until a condition is met. The steps of the caller are done at
once, except that sleeping and shutting down let the session run: `Session.step`. A caller that
sleeps for no time does not give way. A whole script gives one `Entry` a step, with what happened
since the entry before.
-/
namespace SerialDispatch

namespace Session

/-- Does all that is to be done before the limit, or all that is to be done. -/
def run (S : Setup) (limit : Option Nat) (s : Session) : Session :=
  match _h : s.next? S limit with
  | none => s
  | some t => t.run S limit
termination_by (s.workLoad S, s.backlog S)
decreasing_by exact Prod.lex_def.2 (load_next _h)

/-- Does one thing after the other until a condition is met, or nothing is left to be done. -/
def runUntil (S : Setup) (met : Session → Bool) (s : Session) : Session :=
  if met s then s
  else match _h : s.next? S none with
    | none => s
    | some t => t.runUntil S met
termination_by (s.workLoad S, s.backlog S)
decreasing_by exact Prod.lex_def.2 (load_next _h)

/-- Does so many things, or all that is to be done. -/
def runFor (S : Setup) (s : Session) : Nat → Session
  | 0 => s
  | n + 1 =>
    match s.next? S none with
    | none => s
    | some t => t.runFor S n

/-- How long a shutdown waits for worker and delivery to end. -/
def patience : Nat := 10000

/-- Gives way to worker and delivery until a time and sets the clock to it. -/
def sleepUntil (S : Setup) (s : Session) (time : Nat) : Session :=
  { { s with turn := .first }.run S (some time) with clock := time }

/-- Takes the dispatcher, signals the worker to stop and waits until worker and delivery have ended.
When that takes too long the dispatcher is gone all the same, and the rest goes on by itself. -/
def shutdown (S : Setup) (s : Session) : Session × Reply :=
  let limit := s.clock + patience
  let ran := { s.signalStop .gone with turn := .first }.run S (some limit)
  if ran.isComplete then (ran.logShutdown, .stopped) else ({ ran with clock := limit }, .pending)

/-- Worker and delivery are gone where they stand. -/
def teardown (s : Session) : Session :=
  { s.record .tornDown with
    alive := false
    owner := if s.owner = .closing then .gone else s.owner
    inbox := s.inbox.close
    stage := .dead
    phase := .vanished
    mailbox := []
    callbacks := .none }

/-- Sends a signal through a sink that an operation has kept. -/
def through (s : Session) (sink : Nat) (signal : Signal) : Session × Reply :=
  match s.sinkHeld sink with
  | some id => ((s.record (.late ⟨id, signal⟩)).emit id signal, .ok)
  | none => (s, .refused .noSink)

def step (S : Setup) (s : Session) : CallerStep → Session × Reply
  | .command command => s.perform S command
  | .sleep duration =>
    if !s.alive then (s, .refused .noRuntime)
    else if duration = 0 then (s, .ok)
    else (s.sleepUntil S (Timer.due s.clock duration), .ok)
  | .shutdown =>
    if !s.alive then (s, .refused .noRuntime)
    else if s.owner = .held then s.shutdown S
    else (s, .refused .gone)
  | .lateProgress sink update => s.through sink (.progress update)
  | .latePrevent sink => s.through sink .preventCancel
  | .release sink => ({ s with sinks := s.sinks.set sink none }, .flag (s.sinkHeld sink).isSome)
  | .store step => s.ask step
  | .teardown => (s.teardown, .ok)
  | .unreadable fault => (s, .refused (.fault fault))

end Session

/-- What a step was answered, the time after it, and what happened since the step before. -/
structure Entry where
  reply : Reply
  clock : Nat
  happenings : List Happening

namespace Session

def entry (S : Setup) (s : Session) (step : CallerStep) : Entry :=
  let after := s.step S step
  ⟨after.2, after.1.clock, after.1.history.drop s.trail.length⟩

/-- The session after a script. -/
def runScript (S : Setup) (s : Session) (steps : List CallerStep) : Session :=
  steps.foldl (fun s step => (s.step S step).1) s

def entries (S : Setup) (s : Session) : List CallerStep → List Entry
  | [] => []
  | step :: rest => s.entry S step :: (s.step S step).1.entries S rest

end Session
end SerialDispatch
