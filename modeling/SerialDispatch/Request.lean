import SerialDispatch.Kind
import SerialDispatch.OrderedMap

/-!
# Requests and their cryptographic input

A request is a kind and a payload of bytes. Beside it goes a `CryptoInput`, which may hold a
passphrase and key material and is therefore described without showing them: see `describe` and
`describeNested`.
-/
namespace SerialDispatch

abbrev Bytes : Type := List UInt8

/-- The bytes of a text. -/
def Bytes.ofString (text : String) : Bytes := text.toList.flatMap String.utf8EncodeChar

structure Payload where
  data : Bytes
  deriving DecidableEq, Repr

structure Request where
  kind : Kind
  payload : Payload
  deriving DecidableEq, Repr

structure CryptoInput where
  passphrase : Option String
  cryptoData : OrderedMap Bytes Bytes
  signatureTime : Option UInt64
  deriving DecidableEq

namespace Bytes

/-- The bytes in decimal, separated by commas. -/
def listed (data : Bytes) : String :=
  ", ".intercalate (data.map fun b => toString b.toNat)

end Bytes

/-- One line: the kind with its payload inside. -/
def Request.describe (r : Request) : String :=
  r.kind.tag ++ "(Payload \x7b data: [" ++ r.payload.data.listed ++ "] \x7d)"

namespace CryptoInput

def default : CryptoInput := ⟨none, .empty, none⟩

/-- What stands in place of every passphrase. -/
def redacted : String := "\"<redacted>\""

/-- A value that may be absent, in one line. -/
def optionLine (present : Option String) : String :=
  match present with
  | none => "None"
  | some shown => "Some(" ++ shown ++ ")"

/-- A value that may be absent, with a line and a deeper indentation of its own. -/
def optionNested (present : Option String) : String :=
  match present with
  | none => "None"
  | some shown => "Some(\n        " ++ shown ++ ",\n    )"

/-- The members as they are shown: the passphrase redacted, the data as its number of entries. -/
def shownMembers (c : CryptoInput) (option : Option String → String) : List (String × String) :=
  [("passphrase", option (c.passphrase.map fun _ => redacted)),
    ("crypto_data", toString c.cryptoData.size),
    ("signature_time_millis", option (c.signatureTime.map fun t => toString t.toNat))]

/-- One line that shows no secret. -/
def describe (c : CryptoInput) : String :=
  "CryptoInput \x7b " ++
    ", ".intercalate ((c.shownMembers optionLine).map fun m => m.1 ++ ": " ++ m.2) ++ " \x7d"

/-- One line a member, showing no secret. -/
def describeNested (c : CryptoInput) : String :=
  "CryptoInput \x7b\n" ++
    String.join
      ((c.shownMembers optionNested).map fun m => "    " ++ m.1 ++ ": " ++ m.2 ++ ",\n") ++ "\x7d"

end CryptoInput
end SerialDispatch
