import SerialDispatch.Decimal
import SerialDispatch.Dispatcher.Session

/-!
# The options of a simulation

An option is given on the command line, as `--count 3` or `--count=3`, or left at its default; two
of them may also come from the environment. Options with a value read it as a decimal number; flags
take none. No option is given twice, and nothing else stands on the command line, except that `-h`
or `--help` asks for help.
-/
namespace SerialDispatch.Simulation

structure Options where
  /-- How many requests are made. -/
  count : Nat := 6
  /-- How many steps each operation takes. -/
  steps : UInt32 := 5
  /-- How many milliseconds a step takes. -/
  stepTime : Nat := 20
  config : Config := {}
  /-- One request in so many is cancelled at once; none, if zero. -/
  cancelEvery : Nat := 0
  jsonLogs : Bool := false
  deriving DecidableEq, Repr

/-- What can be set by an option. -/
inductive Setting where
  | count
  | steps
  | stepTime
  | quiescence
  | coalescing
  | cancelEvery
  | jsonLogs
  deriving DecidableEq, Repr

namespace Setting

def all : List Setting :=
  [count, steps, stepTime, quiescence, coalescing, cancelEvery, jsonLogs]

/-- The name on the command line, behind two hyphens. -/
def name : Setting → String
  | count => "count"
  | steps => "steps"
  | stepTime => "step-ms"
  | quiescence => "quiescence-ms"
  | coalescing => "coalesce"
  | cancelEvery => "cancel-every"
  | jsonLogs => "json-logs"

/-- Whether it takes no value on the command line. -/
def isFlag : Setting → Bool
  | coalescing | jsonLogs => true
  | _ => false

def ofName? (name : List Char) : Option Setting := all.find? fun s => s.name.toList = name

end Setting

/-- What is read from the environment. -/
structure Environment where
  logFilter : Option String := none
  quiescence : Option String := none
  coalescing : Option String := none
  deriving DecidableEq, Repr

/-- The variable that stands in for an option that is not on the command line. -/
def Environment.value? (e : Environment) : Setting → Option String
  | .quiescence => e.quiescence
  | .coalescing => e.coalescing
  | _ => none

/-- A number of steps; zero may also be negative. -/
def stepCount? (text : List Char) : Option UInt32 :=
  match text with
  | '-' :: digits@(c :: _) =>
    if c.isDigit then (Decimal.natural? 1 digits).map UInt32.ofNat else none
  | _ => (Decimal.natural? UInt32.size text).map UInt32.ofNat

def truth? (text : List Char) : Option Bool :=
  if text = "true".toList then some true
  else if text = "false".toList then some false
  else none

/-- A number that fits into a word. -/
def number? (text : List Char) : Option Nat := Decimal.natural? UInt64.size text

/-- Sets one option to what its value says, if it says anything. -/
def Options.set? (o : Options) (s : Setting) (value : List Char) : Option Options :=
  match s with
  | .count => (number? value).map fun n => { o with count := n }
  | .steps => (stepCount? value).map fun n => { o with steps := n }
  | .stepTime => (number? value).map fun n => { o with stepTime := n }
  | .quiescence =>
    (number? value).map fun n => { o with config := { o.config with quiescence := n } }
  | .coalescing =>
    (truth? value).map fun b => { o with config := { o.config with coalescing := b } }
  | .cancelEvery => (number? value).map fun n => { o with cancelEvery := n }
  | .jsonLogs => (truth? value).map fun b => { o with jsonLogs := b }

/-- Options, and which of them were given. -/
structure Given where
  options : Options
  settings : List Setting
  deriving DecidableEq, Repr

/-- Gives one more option, which was not given before. -/
def Given.add? (g : Given) (s : Setting) (value : List Char) : Option Given :=
  if g.settings.contains s then none
  else (g.options.set? s value).map fun o => ⟨o, s :: g.settings⟩

/-- Takes an option that was not given from the environment, if it is set there. -/
def Given.supply? (e : Environment) (g : Given) (s : Setting) : Option Given :=
  match e.value? s with
  | some value => if g.settings.contains s then some g else g.add? s value.toList
  | none => some g

/-- What a command line asks for. -/
inductive Invocation where
  | run (options : Options)
  | help
  | wrong
  deriving DecidableEq, Repr

/-- How an argument begins. -/
inductive Argument where
  | option (setting : Setting) (value : Option (List Char))
  | help
  /-- The end of the options. -/
  | endOfOptions
  | unknown
  deriving DecidableEq, Repr

def Argument.ofText (text : List Char) : Argument :=
  match text with
  | ['-', '-'] => .endOfOptions
  | '-' :: '-' :: long =>
    let name := long.takeWhile (· ≠ '=')
    let value := match long.dropWhile (· ≠ '=') with
      | _ :: value => some value
      | [] => none
    match Setting.ofName? name with
    | some s => .option s value
    | none => if long = "help".toList then .help else .unknown
  | '-' :: 'h' :: _ => .help
  | _ => .unknown

/-- What is asked for when nothing is left on the command line. -/
def Given.finish (e : Environment) (g : Given) : Invocation :=
  match Setting.all.foldlM (Given.supply? e) g with
  | some all => .run all.options
  | none => .wrong

/-- Reads a command line from left to right; the first thing that is wrong, or that asks for help,
decides. A value that stands by itself does not begin with a hyphen. -/
def Given.read (e : Environment) (g : Given) : List (List Char) → Invocation
  | [] => g.finish e
  | text :: rest =>
    match Argument.ofText text with
    | .help => .help
    | .unknown => .wrong
    | .endOfOptions => if rest.isEmpty then g.finish e else .wrong
    | .option s (some value) =>
      if s.isFlag then .wrong
      else match g.add? s value with
        | some g => g.read e rest
        | none => .wrong
    | .option s none =>
      if s.isFlag then
        match g.add? s "true".toList with
        | some g => g.read e rest
        | none => .wrong
      else
        match rest with
        | [] => .wrong
        | value :: rest =>
          if value.head? = some '-' then .wrong
          else match g.add? s value with
            | some g => g.read e rest
            | none => .wrong

/-- What the arguments and the environment ask for. -/
def Invocation.ofArguments (e : Environment) (arguments : List String) : Invocation :=
  Given.read e ⟨{}, []⟩ (arguments.map String.toList)

end SerialDispatch.Simulation
