/-!
# JSON values

A JSON text as a value.  Numbers keep no value, because nothing here reads one.  A
JSON string can hold half of a surrogate pair, which no text has; such a string is a
value too, but has no content.
-/

namespace Retrace.Json

/-- A JSON value.  Members keep their order, and a name may occur more than once. -/
inductive Value
  | null
  | bool (value : Bool)
  | number
  /-- A string.  It has no content if an escape leaves half of a surrogate pair. -/
  | string (content : Option String)
  | array (items : List Value)
  | object (members : List (Option String × Value))
  deriving Repr

/-- A part of a string: a character, or a UTF-16 unit that was written as an
    escape. -/
inductive Piece
  | char (c : Char)
  | unit (value : Nat)
  deriving DecidableEq, Repr

/-- The characters of a string.  The two halves of a surrogate pair are one character
    if both are written as escapes, next to each other and in this order, and a half
    by itself is none. -/
def contentOf : List Piece → Option (List Char)
  | [] => some []
  | .char c :: rest => (contentOf rest).map (c :: ·)
  | .unit high :: .unit low :: rest =>
      if 0xD800 ≤ high ∧ high < 0xDC00 then
        if 0xDC00 ≤ low ∧ low < 0xE000 then
          let code := 0x10000 + (high - 0xD800) * 0x400 + (low - 0xDC00)
          (contentOf rest).map (Char.ofNat code :: ·)
        else none
      else if 0xDC00 ≤ high ∧ high < 0xE000 then none
      else (contentOf (.unit low :: rest)).map (Char.ofNat high :: ·)
  | .unit value :: rest =>
      if 0xD800 ≤ value ∧ value < 0xE000 then none
      else (contentOf rest).map (Char.ofNat value :: ·)

end Retrace.Json
