/-!
# JSON values and their written form

A value keeps the members of an object in the order in which they are written, repeated names
included. A number written as a plain integer is that integer; any other number keeps its text,
because `1.0` and `1e0` are not integers for a reader of this format.

`Json.chars` writes a value without blanks. Characters other than quotes, backslashes and control
characters are written as they are.
-/
namespace SerialDispatch

/-- A number, by the way it is written. -/
inductive Numeral where
  | integer (value : Int)
  | real (text : String)
  deriving DecidableEq, Repr

inductive Json where
  | null
  | bool (value : Bool)
  | number (value : Numeral)
  | string (value : String)
  | array (items : List Json)
  | object (members : List (String × Json))
  deriving Repr

namespace Json

/-- Members written in the same order, absent ones left out. -/
def ofMembers (members : List (String × Option Json)) : Json :=
  .object (members.filterMap fun m => m.2.map fun v => (m.1, v))

def nat (n : Nat) : Json := .number (.integer n)

def ofOption {α : Type} (write : α → Json) : Option α → Json
  | none => .null
  | some a => write a

def ofList {α : Type} (write : α → Json) (items : List α) : Json := .array (items.map write)

/-- The member of this name; the last one, when it is repeated. -/
def field? (name : String) : Json → Option Json
  | .object members => (members.reverse.find? fun m => m.1 == name).map (·.2)
  | _ => none

/-- One character between quotes. -/
def quoteChar (c : Char) : List Char :=
  if c = '"' then ['\\', '"']
  else if c = '\\' then ['\\', '\\']
  else if c = '\n' then ['\\', 'n']
  else if c = '\r' then ['\\', 'r']
  else if c = '\t' then ['\\', 't']
  else if c = '\x08' then ['\\', 'b']
  else if c = '\x0c' then ['\\', 'f']
  else if c.toNat < 32 then
    ['\\', 'u', '0', '0', Nat.digitChar (c.toNat / 16), Nat.digitChar (c.toNat % 16)]
  else [c]

/-- A text between quotes. -/
def quoted (text : List Char) : List Char := '"' :: text.flatMap quoteChar ++ ['"']

def Numeral.chars : Numeral → List Char
  | .integer (.ofNat n) => Nat.toDigits 10 n
  | .integer (.negSucc n) => '-' :: Nat.toDigits 10 (n + 1)
  | .real text => text.toList

mutual

/-- The written form of a value, without blanks. -/
def chars : Json → List Char
  | .null => ['n', 'u', 'l', 'l']
  | .bool true => ['t', 'r', 'u', 'e']
  | .bool false => ['f', 'a', 'l', 's', 'e']
  | .number n => Numeral.chars n
  | .string s => quoted s.toList
  | .array items => '[' :: itemsChars items ++ [']']
  | .object members => '\x7b' :: membersChars members ++ ['\x7d']

def itemsChars : List Json → List Char
  | [] => []
  | item :: rest => chars item ++ moreItems rest

/-- The items after the first, each behind a comma. -/
def moreItems : List Json → List Char
  | [] => []
  | item :: rest => ',' :: chars item ++ moreItems rest

def membersChars : List (String × Json) → List Char
  | [] => []
  | (name, value) :: rest => quoted name.toList ++ ':' :: chars value ++ moreMembers rest

/-- The members after the first, each behind a comma. -/
def moreMembers : List (String × Json) → List Char
  | [] => []
  | (name, value) :: rest => ',' :: quoted name.toList ++ ':' :: chars value ++ moreMembers rest

end

def compact (value : Json) : String := String.ofList value.chars

end Json
end SerialDispatch
