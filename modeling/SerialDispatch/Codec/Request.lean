import SerialDispatch.Json.Record
import SerialDispatch.KeyStore

/-!
# Requests, payloads and input in JSON

A request is tagged beside its payload: `kind` holds the name of the kind and `payload` the payload.
When the payload comes before the kind it is checked as a value of any form, and decoded from its
place once the kind is known; an unknown kind is then the problem that counts. In the array of both
the kind is its bare name.

Cryptographic input has a written form only while its data is empty, because the keys of the data
are bytes and a member needs a name.
-/
namespace SerialDispatch

namespace Kind

def toJson (k : Kind) : Json := .string k.tag

/-- Kinds by their tags. -/
def tagged : Choice Kind := ⟨all.map fun k => (k.tag, k), []⟩

/-- Kinds by their names. -/
def named : Choice Kind := ⟨all.map fun k => (k.name, k), []⟩

def reader : Reader Kind := tagged.reader

end Kind

namespace Bytes

def toJson (data : Bytes) : Json := .ofList (fun b => .nat b.toNat) data

/-- Bytes as numbers in an array, or as the bytes of a text. -/
def reader : Reader Bytes := fun cs =>
  match Reader.trim cs with
  | '"' :: _ => do
    let (ps, rest) ← Reader.pieces cs
    return (Quoted.bytes ps, rest)
  | _ => Reader.list Reader.byte cs

/-- The record of its bytes alone. -/
def record : Record Unit where
  order := [()]
  name _ := "data"
  Value _ := Bytes
  read _ := reader

/-- Bytes as the only member of a record. -/
def wrappedJson (data : Bytes) : Json := .object [("data", data.toJson)]

def wrapped : Reader Bytes := record.reader fun slots => required (slots ())

end Bytes

namespace Payload

def toJson (p : Payload) : Json := p.data.wrappedJson

def reader : Reader Payload := fun cs => do
  let (data, rest) ← Bytes.wrapped cs
  return (⟨data⟩, rest)

end Payload

namespace Keyring

def toJson (k : Keyring) : Json := k.data.wrappedJson

def reader : Reader Keyring := fun cs => do
  let (data, rest) ← Bytes.wrapped cs
  return (⟨data⟩, rest)

end Keyring

namespace Request

def toJson (r : Request) : Json :=
  .object [("kind", .string r.kind.name), ("payload", r.payload.toJson)]

/-- The two members that make a request. -/
inductive Part where
  | kind
  | payload
  deriving DecidableEq, Repr

def Part.ofName? (name : String) : Option Part :=
  if name = "kind" then some .kind else if name = "payload" then some .payload else none

/-- The next member that makes a request, its name read, or the end of the object. The flag tells
whether a member stands before it, the number bounds the members passed over. -/
def nextPart : Nat → Bool → Reader (Option Part)
  | 0, _, _ => .error .malformed
  | n + 1, later, cs =>
    match Reader.trim cs with
    | '\x7d' :: rest => .ok (none, rest)
    | other => do
      let other ← if later then Reader.punctuation ',' other else .ok other
      let (name, rest) ← Reader.string other
      match Part.ofName? name with
      | some part => return (some part, rest)
      | none => do
        let (_, rest) ← Reader.skip (← Reader.punctuation ':' rest)
        nextPart n true rest

def part (later : Bool) : Reader (Option Part) := fun cs => nextPart (cs.length + 1) later cs

/-- The end of the object; members that make a request have come already. -/
def close (r : Request) : Reader Request := fun cs => do
  match ← part true cs with
  | (none, rest) => return (r, rest)
  | (some _, _) => throw .duplicateField

/-- A kind, by its name, and then the payload. -/
def kindFirst : Reader Request := fun cs => do
  let (kind, rest) ← Kind.named.reader (← Reader.punctuation ':' cs)
  match ← part true rest with
  | (some .payload, rest) => do
    let (payload, rest) ← Payload.reader (← Reader.punctuation ':' rest)
    close ⟨kind, payload⟩ rest
  | (some .kind, _) => throw .duplicateField
  | (none, _) => throw .missingField

/-- A payload, kept as the place where it stands, and then the kind. -/
def payloadFirst : Reader Request := fun cs => do
  let place ← Reader.punctuation ':' cs
  let (_, rest) ← Json.read (Json.maxDepth - 1) place
  match ← part true rest with
  | (some .kind, rest) => do
    let (kind, rest) ← Kind.named.reader (← Reader.punctuation ':' rest)
    let (payload, _) ← Payload.reader place
    close ⟨kind, payload⟩ rest
  | (some .payload, _) => throw .duplicateField
  | (none, _) => throw .missingField

def reader : Reader Request := fun cs =>
  match Reader.trim cs with
  | '\x7b' :: rest => do
    match ← part false rest with
    | (some .kind, rest) => kindFirst rest
    | (some .payload, rest) => payloadFirst rest
    | (none, _) => throw .missingField
  | '[' :: rest => do
    let (kind, rest) ← Kind.named.bare rest
    let (payload, rest) ← Payload.reader (← Reader.punctuation ',' rest)
    return (⟨kind, payload⟩, ← Reader.punctuation ']' rest)
  | _ => .error .malformed

end Request

namespace CryptoInput

/-- Why an input has no written form. -/
inductive EncodeError where
  | keyNotText
  deriving DecidableEq, Repr

def EncodeError.message : EncodeError → String
  | .keyNotText => "key must be a string"

def toJson (c : CryptoInput) : Except EncodeError Json :=
  match c.cryptoData.entries with
  | [] => .ok (.object [("passphrase", .ofOption .string c.passphrase), ("crypto_data", .object []),
      ("signature_time_millis", .ofOption (fun t => .nat t.toNat) c.signatureTime)])
  | _ :: _ => .error .keyNotText

inductive Part where
  | passphrase
  | cryptoData
  | signatureTime
  deriving DecidableEq, Repr

/-- An object without members. -/
def noData : Reader Unit := fun cs => do
  return ((), ← Reader.punctuation '\x7d' (← Reader.punctuation '\x7b' cs))

def record : Record Part where
  order := [.passphrase, .cryptoData, .signatureTime]
  name
    | .passphrase => "passphrase"
    | .cryptoData => "crypto_data"
    | .signatureTime => "signature_time_millis"
  Value
    | .passphrase => Option String
    | .cryptoData => Unit
    | .signatureTime => Option UInt64
  read
    | .passphrase => Reader.optional Reader.string
    | .cryptoData => noData
    | .signatureTime => Reader.optional Reader.word64

/-- The passphrase and the time may be left out; the data may not. -/
def reader : Reader CryptoInput := record.reader fun slots => do
  let _ ← required (slots .cryptoData)
  return ⟨(slots .passphrase).getD none, .empty, (slots .signatureTime).getD none⟩

end CryptoInput
end SerialDispatch
