import SerialDispatch.Codec.Result
import SerialDispatch.Simulation.Logged

/-!
# The course of a simulation

The program makes all its requests, awaits them one after the other, and shuts the dispatcher down.
Meanwhile worker and delivery go on, and what is logged is printed at once. The line of a request is
printed when it has been awaited. A start that panics makes the program break off, and so does a
callback that is gone without having been told how its request ended.
-/
namespace SerialDispatch

namespace Happening

/-- How the request of a callback ended, if the callback is told of it. -/
def outcome? (callback : Nat) : Happening → Option Outcome
  | .told n ⟨_, .finished outcome⟩ => if n = callback then some outcome else none
  | _ => none

end Happening

namespace Session

/-- Whether a callback is registered, or on its way to be. -/
def keeps (s : Session) (callback : Nat) : Bool :=
  (s.mailbox.filterMap Message.registration? ++ s.callbacks).any (·.2.number = callback)

/-- How the request of a callback ended, as the callback was told. -/
def outcome? (s : Session) (callback : Nat) : Option Outcome :=
  s.history.findSome? (Happening.outcome? callback)

end Session

namespace Simulation

/-- What stands behind the number and the kind of a request. -/
def outcomeText : Outcome → String
  | .cancelledBeforeStart => "cancelled before start"
  | .completed result => result.toJson.compact

/-- The line of request `i`: its number, its kind and its outcome. -/
def line (i : Nat) (outcome : Outcome) : String :=
  (Layout.mk 3 none .right ' ').apply (toString i) ++ " " ++
    (kindOf i).shown ⟨15, none, .left, ' '⟩ ++ " " ++ outcomeText outcome

/-- What the program prints. -/
inductive Printed where
  | entry (l : Logged)
  | line (text : String)
  deriving DecidableEq, Repr

namespace Printed

def entry? : Printed → Option Logged
  | .entry l => some l
  | .line _ => none

def line? : Printed → Option String
  | .entry _ => none
  | .line text => some text

end Printed

/-- What becomes of a program that runs. -/
inductive Ending where
  | exited (status : Nat)
  /-- It waits for something that never comes. -/
  | stuck
  deriving DecidableEq, Repr

/-- The status of the process; one that is stuck has to be killed. -/
def Ending.status : Ending → Nat
  | .exited status => status
  | .stuck => 137

/-- All that is printed, and the end. -/
structure Report where
  printed : List Printed
  ending : Ending
  deriving DecidableEq, Repr

/-- The program while it runs. -/
structure Program where
  session : Session
  printed : List Printed

namespace Program

def start : Program := ⟨.start, []⟩

/-- The session has gone on, and what was logged on the way is printed. -/
def goTo (p : Program) (s : Session) : Program where
  session := s
  printed := p.printed ++ (Logged.during (s.history.drop p.session.trail.length)).map .entry

variable (o : Options)

/-- Makes request `i`, and cancels it at once if it is to be. -/
def make (p : Program) (i : Nat) : Except Report Program :=
  let started := p.session.perform o.setup (.start (requestOf i) .default .needed none [])
  match started.2 with
  | .started _ handle =>
    .ok (p.goTo (if o.cancels i then (started.1.perform o.setup (.cancel handle)).1
      else started.1))
  | _ => .error ⟨(p.goTo started.1).printed, .exited 101⟩

/-- Awaits the end of request `i` and prints its line. The program notices the end only after so
many things more that worker and delivery do. -/
def await (delay : Nat) (p : Program) (i : Nat) : Except Report Program :=
  let ended := p.session.runUntil o.setup fun s => !s.keeps i
  if ended.keeps i then .error ⟨(p.goTo ended).printed, .stuck⟩
  else
    let p := p.goTo (ended.runFor o.setup delay)
    match p.session.outcome? i with
    | some outcome => .ok { p with printed := p.printed ++ [.line (line i outcome)] }
    | none => .error ⟨p.printed, .exited 1⟩

/-- Shuts the dispatcher down and waits until worker and delivery have ended. -/
def finish (p : Program) : Report :=
  let ran := { p.session.signalStop .gone with turn := .first }.run o.setup none
  if ran.isComplete then
    let p := p.goTo ran.logShutdown
    ⟨p.printed ++ [.entry (.done p.session.store.size)], .exited 0⟩
  else ⟨(p.goTo ran).printed, .stuck⟩

/-- Makes all requests and awaits them. -/
def awaitAll (delays : Nat → Nat) : Except Report Program := do
  let made ← (List.range o.count).foldlM (make o) start
  (List.range o.count).foldlM (fun p i => p.await o (delays i) i) made

end Program

namespace Options

/-- What a simulation reports that notices the end of each request after a delay. -/
def reportAfter (o : Options) (delays : Nat → Nat) : Report :=
  match Program.awaitAll o delays with
  | .ok p => p.finish o
  | .error report => report

/-- What a simulation reports that notices the end of each request at once. -/
def report (o : Options) : Report := o.reportAfter fun _ => 0

end Options

namespace Report

/-- The lines of the requests. -/
def lines (r : Report) : List String := r.printed.filterMap Printed.line?

/-- What a filter shows of the log. -/
def shown (r : Report) (f : LogFilter) : List Logged :=
  (r.printed.filterMap Printed.entry?).filterMap (Logged.under? f)

end Report
end Simulation
end SerialDispatch
