/-!
# Cutting texts

Places in a text are counted in the bytes of its UTF-8 form. A text can be cut at the beginning of a
character or at its end, but not within one.
-/
namespace SerialDispatch.Text

/-- The number of bytes of a text. -/
def byteLength : List Char → Nat
  | [] => 0
  | c :: rest => c.utf8Size + byteLength rest

/-- The text before a place and the text behind it. -/
def cutAt? : Nat → List Char → Option (List Char × List Char)
  | 0, text => some ([], text)
  | _ + 1, [] => none
  | place + 1, c :: rest =>
    if c.utf8Size ≤ place + 1 then
      (cutAt? (place + 1 - c.utf8Size) rest).map fun parts => (c :: parts.1, parts.2)
    else none
termination_by _ text => text.length

/-- The text between two places. -/
def between? (first last : Nat) (text : List Char) : Option (List Char) := do
  let (_, behind) ← cutAt? first text
  let (piece, _) ← cutAt? (last - first) behind
  return piece

/-- The text behind a place. -/
def behind? (first : Nat) (text : List Char) : Option (List Char) := (cutAt? first text).map (·.2)

end SerialDispatch.Text
