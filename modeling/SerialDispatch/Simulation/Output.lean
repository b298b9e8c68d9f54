import SerialDispatch.Simulation.Program

/-!
# What a simulation prints

A log entry that a filter shows is printed as JSON or as plain text, the line of a request as it is.
-/
namespace SerialDispatch.Simulation

namespace Logged

/-- The message with its fields. -/
def content (l : Logged) : List (String × Json) := ("message", .string l.message) :: l.fields

def toJson (l : Logged) : Json :=
  .ofMembers [("level", some (.string l.callsite.severity.name)),
    ("fields", some (.object l.content)), ("target", some (.string l.callsite.target)),
    ("span", l.span?.map Span.toJson)]

/-- The severity, the span if there is one, the target, the message and the fields. -/
def text (l : Logged) : String :=
  let span := match l.span? with
    | some span => "dispatch " ++ toString span.id ++ " (" ++ span.kind.name ++ "): "
    | none => ""
  (Layout.mk 5 none .right ' ').apply l.callsite.severity.name ++ " " ++ span ++
    l.callsite.target ++ ": " ++ l.message ++
    String.join (l.fields.map fun f => " " ++ f.1 ++ "=" ++ f.2.compact)

end Logged

/-- The text of an entry of the log. -/
def Logged.printed (asJson : Bool) (l : Logged) : String :=
  if asJson then l.toJson.compact else l.text

/-- What is printed under a filter of the log, if anything. -/
def Printed.text? (f : LogFilter) (asJson : Bool) : Printed → Option String
  | .entry l => (l.under? f).map (Logged.printed asJson)
  | .line text => some text

/-- All that is printed under a filter of the log. -/
def Report.output (r : Report) (f : LogFilter) (asJson : Bool) : List String :=
  r.printed.filterMap (Printed.text? f asJson)

/-- How options are given. -/
def usage : List String :=
  ["Usage: keyops-demo [options]", "",
    "  --count N          requests to submit (6)",
    "  --steps N          steps of each operation (5)",
    "  --step-ms N        milliseconds of each step (20)",
    "  --quiescence-ms N  milliseconds to wait for a progress surface (200)",
    "  --coalesce         coalesce progress updates",
    "  --cancel-every N   cancel every N-th request at once (0: none)",
    "  --json-logs        log as JSON lines",
    "  -h, --help         show this text"]

/-- The most requests that a simulation can make: a place of 24 bytes is reserved for each of them
before the first is made, and no reservation is as large as 2^63 bytes. -/
def maxCount : Nat := (Nat.pow 2 63 - 1) / 24

/-- What becomes of the program. -/
inductive Course where
  /-- A simulation is run, and its log shown through a filter. -/
  | run (options : Options) (filter : LogFilter)
  | help
  | wrong
  /-- The program breaks off: the filter cannot be read, or there is no room for the requests. -/
  | brokenOff
  deriving DecidableEq, Repr

namespace Course

def ofArguments (e : Environment) (arguments : List String) : Course :=
  match Invocation.ofArguments e arguments with
  | .run options =>
    match LogFilter.ofEnvironment? e.logFilter with
    | some filter => if options.count ≤ maxCount then .run options filter else .brokenOff
    | none => .brokenOff
  | .help => .help
  | .wrong => .wrong

/-- The status with which the program ends. -/
def exitStatus : Course → Nat
  | .run options _ => options.report.ending.status
  | .help => 0
  | .wrong => 2
  | .brokenOff => 101

end Course

end SerialDispatch.Simulation
