import SerialDispatch.Codec.Request
import SerialDispatch.Result

/-!
# Failures and results in JSON

A failure or a status without content is its name. One with content is an object with the name as
its only member. A result holds its kind by tag.
-/
namespace SerialDispatch

namespace Failure

def toJson : Failure → Json
  | .badPassphrase => .string "BadPassphrase"
  | .keyNotFound id => .object [("KeyNotFound", .object [("master_key_id", .nat id.toNat)])]
  | .repository message => .object [("Repository", .string message)]
  | .io message => .object [("Io", .string message)]
  | .internal message => .object [("Internal", .string message)]

/-- The record of a key id alone. -/
def keyRecord : Record Unit where
  order := [()]
  name _ := "master_key_id"
  Value _ := UInt64
  read _ := Reader.word64

/-- Reads a text and makes a failure of it. -/
def withMessage (make : String → Failure) : Reader Failure := fun cs => do
  let (message, rest) ← Reader.string cs
  return (make message, rest)

def alternatives : Choice Failure where
  plain := [("BadPassphrase", .badPassphrase)]
  laden := [
    ("KeyNotFound", keyRecord.reader fun slots => .keyNotFound <$> required (slots ())),
    ("Repository", withMessage .repository),
    ("Io", withMessage .io),
    ("Internal", withMessage .internal)]

def reader : Reader Failure := alternatives.reader

end Failure

namespace Status

def toJson : Status → Json
  | .ok => .string "Ok"
  | .cancelled => .string "Cancelled"
  | .failed f => .object [("Failed", f.toJson)]

def alternatives : Choice Status where
  plain := [("Ok", .ok), ("Cancelled", .cancelled)]
  laden := [("Failed", fun cs => do
    let (f, rest) ← Failure.reader cs
    return (.failed f, rest))]

def reader : Reader Status := alternatives.reader

end Status

namespace Level

def all : List Level := [.debug, .info, .warn, .error]

def tag : Level → String
  | .debug => "Debug"
  | .info => "Info"
  | .warn => "Warn"
  | .error => "Error"

def toJson (l : Level) : Json := .string l.tag

def alternatives : Choice Level := ⟨all.map fun l => (l.tag, l), []⟩

def reader : Reader Level := alternatives.reader

end Level

namespace LogEntry

def toJson (e : LogEntry) : Json :=
  .object [("level", e.level.toJson), ("message", .string e.message)]

inductive Part where
  | level
  | message
  deriving DecidableEq, Repr

def record : Record Part where
  order := [.level, .message]
  name
    | .level => "level"
    | .message => "message"
  Value
    | .level => Level
    | .message => String
  read
    | .level => Level.reader
    | .message => Reader.string

def reader : Reader LogEntry := record.reader fun slots => do
  return ⟨← required (slots .level), ← required (slots .message)⟩

end LogEntry

namespace Result

def toJson (r : Result) : Json :=
  .object [("kind", r.kind.toJson), ("status", r.status.toJson),
    ("log", .ofList LogEntry.toJson r.log)]

inductive Part where
  | kind
  | status
  | log
  deriving DecidableEq, Repr

def record : Record Part where
  order := [.kind, .status, .log]
  name
    | .kind => "kind"
    | .status => "status"
    | .log => "log"
  Value
    | .kind => Kind
    | .status => Status
    | .log => List LogEntry
  read
    | .kind => Kind.reader
    | .status => Status.reader
    | .log => Reader.list LogEntry.reader

def reader : Reader Result := record.reader fun slots => do
  return ⟨← required (slots .kind), ← required (slots .status), ← required (slots .log)⟩

end Result

/-- The value written in a text. -/
def decode {α : Type} (read : Reader α) (text : String) : Except DecodeError α :=
  Reader.whole read text.toList

end SerialDispatch
