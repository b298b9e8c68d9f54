/-!
# Quoted text

Between quotes stand characters and escapes. An escape names a 16-bit code unit, so a quoted text is
read in two stages: first into `Piece`s, then into what the reader wants of them.

* `text?`: characters. A control character must be escaped and surrogate units must come in pairs.
* `bytes`: UTF-8. Control characters may stand as they are, and a surrogate unit without its
  partner is encoded by itself in three bytes.
* `skippable`: nothing is wanted, so surrogate units may stand alone.
-/
namespace SerialDispatch.Quoted

/-- A character as it stands, or the code unit that an escape names. -/
inductive Piece where
  | plain (c : Char)
  | unit (u : Nat)
  deriving DecidableEq, Repr

def hexValue? (c : Char) : Option Nat :=
  if '0' ≤ c ∧ c ≤ '9' then some (c.toNat - '0'.toNat)
  else if 'a' ≤ c ∧ c ≤ 'f' then some (c.toNat - 'a'.toNat + 10)
  else if 'A' ≤ c ∧ c ≤ 'F' then some (c.toNat - 'A'.toNat + 10)
  else none

/-- The unit named by four hexadecimal digits. -/
def unit? (a b c d : Char) : Option Nat := do
  return (((← hexValue? a) * 16 + (← hexValue? b)) * 16 + (← hexValue? c)) * 16 + (← hexValue? d)

/-- The unit named by a one-letter escape. -/
def shortEscape? (c : Char) : Option Nat :=
  match c with
  | '"' => some 0x22
  | '\\' => some 0x5c
  | '/' => some 0x2f
  | 'b' => some 0x08
  | 'f' => some 0x0c
  | 'n' => some 0x0a
  | 'r' => some 0x0d
  | 't' => some 0x09
  | _ => none

/-- The pieces up to the closing quote, and what follows it. -/
def pieces? : List Char → Option (List Piece × List Char)
  | [] => none
  | '"' :: rest => some ([], rest)
  | '\\' :: 'u' :: a :: b :: c :: d :: rest => do
    let u ← unit? a b c d
    let (ps, rest) ← pieces? rest
    return (.unit u :: ps, rest)
  | '\\' :: e :: rest => do
    let u ← shortEscape? e
    let (ps, rest) ← pieces? rest
    return (.unit u :: ps, rest)
  | c :: rest => do
    let (ps, rest) ← pieces? rest
    return (.plain c :: ps, rest)

def isLead (u : Nat) : Bool := 0xd800 ≤ u && u < 0xdc00

def isTrail (u : Nat) : Bool := 0xdc00 ≤ u && u < 0xe000

/-- The code point that a pair of surrogate units stands for. -/
def pairPoint (lead trail : Nat) : Nat := 0x10000 + (lead - 0xd800) * 0x400 + (trail - 0xdc00)

/-- The character of a unit that is no surrogate. -/
def unitChar? (u : Nat) : Option Char :=
  if isLead u || isTrail u then none else some (Char.ofNat u)

def text? : List Piece → Option (List Char)
  | [] => some []
  | .plain c :: rest => if c.toNat < 32 then none else (text? rest).map (c :: ·)
  | .unit u :: .unit v :: rest =>
    if isLead u && isTrail v then (text? rest).map (Char.ofNat (pairPoint u v) :: ·)
    else do return (← unitChar? u) :: (← text? (.unit v :: rest))
  | .unit u :: rest => do return (← unitChar? u) :: (← text? rest)

/-- The bytes of a unit without a partner; three of them for a surrogate. -/
def unitBytes (u : Nat) : List UInt8 :=
  if isLead u || isTrail u then
    [UInt8.ofNat (0xe0 + u / 0x1000), UInt8.ofNat (0x80 + u / 0x40 % 0x40),
      UInt8.ofNat (0x80 + u % 0x40)]
  else String.utf8EncodeChar (Char.ofNat u)

def bytes : List Piece → List UInt8
  | [] => []
  | .plain c :: rest => String.utf8EncodeChar c ++ bytes rest
  | .unit u :: .unit v :: rest =>
    if isLead u && isTrail v then String.utf8EncodeChar (Char.ofNat (pairPoint u v)) ++ bytes rest
    else unitBytes u ++ bytes (.unit v :: rest)
  | .unit u :: rest => unitBytes u ++ bytes rest

/-- A quoted text of which nothing is kept may hold any units, but no bare control character. -/
def skippable (ps : List Piece) : Bool :=
  ps.all fun
    | .plain c => 32 ≤ c.toNat
    | .unit _ => true

end SerialDispatch.Quoted
