/-!
# Numbers as users write them

Numbers from the command line and from the environment, in decimal digits.
-/
namespace SerialDispatch.Decimal

/-- The text without the sign in front of it, if one of these stands there. -/
def unsigned (signs text : List Char) : List Char :=
  match text with
  | c :: rest => if signs.contains c then rest else text
  | [] => []

def areDigits (text : List Char) : Bool := !text.isEmpty && text.all Char.isDigit

/-- A number below a bound, with a plus sign before it or not. -/
def natural? (bound : Nat) (text : List Char) : Option Nat :=
  let digits := unsigned ['+'] text
  let value := Nat.ofDigitChars 10 digits 0
  if areDigits digits && value < bound then some value else none

/-- Whether a text spells infinity or that it is no number, in capitals or not. -/
def isSpecial (text : List Char) : Bool :=
  let small := String.ofList (text.map Char.toLower)
  small = "inf" || small = "infinity" || small = "nan"

/-- Whether a text is a real number: digits with a point among, before or behind them or without
one, and an exponent or none. -/
def isReal (text : List Char) : Bool :=
  let text := unsigned ['+', '-'] text
  let digits := text.takeWhile Char.isDigit
  let text' := text.dropWhile Char.isDigit
  let (fraction, rest) := match text' with
    | '.' :: rest => (rest.takeWhile Char.isDigit, rest.dropWhile Char.isDigit)
    | _ => ([], text')
  let ended := match rest with
    | [] => true
    | c :: rest => (c = 'e' || c = 'E') && areDigits (unsigned ['+', '-'] rest)
  isSpecial text || (!(digits ++ fraction).isEmpty && ended)

end SerialDispatch.Decimal
