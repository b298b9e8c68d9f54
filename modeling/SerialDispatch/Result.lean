import SerialDispatch.Kind

/-!
# Failures, results and outcomes

An operation that was run has a result: its status and the log it kept. An outcome is a result, or
the news that the operation never began.
-/
namespace SerialDispatch

inductive Failure where
  | badPassphrase
  | keyNotFound (id : UInt64)
  | repository (message : String)
  | io (message : String)
  | internal (message : String)
  deriving DecidableEq, Repr

/-- `0x` and sixteen hexadecimal digits. -/
def paddedHex (n : UInt64) : String :=
  let digits := Nat.toDigits 16 n.toNat
  "0x" ++ String.ofList (List.replicate (16 - digits.length) '0' ++ digits)

def Failure.message : Failure → String
  | .badPassphrase => "bad passphrase"
  | .keyNotFound id => "key " ++ paddedHex id ++ " not found"
  | .repository message => "repository error: " ++ message
  | .io message => "i/o error: " ++ message
  | .internal message => "internal error: " ++ message

inductive Level where
  | debug
  | info
  | warn
  | error
  deriving DecidableEq, Repr

structure LogEntry where
  level : Level
  message : String
  deriving DecidableEq, Repr

inductive Status where
  | ok
  | cancelled
  | failed (failure : Failure)
  deriving DecidableEq, Repr

namespace Status

def label : Status → String
  | .ok => "ok"
  | .cancelled => "cancelled"
  | .failed _ => "failed"

def failure? : Status → Option Failure
  | .failed f => some f
  | _ => none

end Status

structure Result where
  kind : Kind
  status : Status
  log : List LogEntry
  deriving DecidableEq, Repr

namespace Result

def isOk (r : Result) : Bool := r.status = .ok

def label (r : Result) : String := r.status.label

/-- The result of an operation that panicked. -/
def ofPanic (kind : Kind) : Result :=
  ⟨kind, .failed (.internal (kind.name ++ " operation panicked")), []⟩

/-- The result of an operation that stopped because it was cancelled, after so many steps. -/
def stoppedAfter (kind : Kind) (steps : Nat) : Result :=
  ⟨kind, .cancelled, [⟨.info, "stopped after " ++ toString steps ++ " steps"⟩]⟩

end Result

inductive Outcome where
  | cancelledBeforeStart
  | completed (result : Result)
  deriving DecidableEq, Repr

def Outcome.result? : Outcome → Option Result
  | .cancelledBeforeStart => none
  | .completed r => some r

end SerialDispatch
