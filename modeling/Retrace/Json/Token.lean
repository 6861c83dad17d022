import Retrace.Json.Value

/-!
# JSON tokens

A JSON text is first divided into tokens.  The scanner reads one character at a
time and keeps what it is in the middle of, so it is a recursion on the text.  A
word or a number ends at the first character that cannot go on with it; whether two
tokens may stand side by side is left to the reader of tokens.
-/

namespace Retrace.Json

inductive Token
  | openBrace
  | closeBrace
  | openBracket
  | closeBracket
  | comma
  | colon
  | null
  | bool (value : Bool)
  | number
  | string (content : Option String)
  deriving DecidableEq, Repr

/-- How far a number has come. -/
inductive NumberPart
  /-- After the minus sign. -/
  | sign
  /-- After a zero in front, which no digit may follow. -/
  | zero
  | whole
  /-- After the decimal point. -/
  | point
  | fraction
  /-- After the letter of the exponent. -/
  | mark
  /-- After the sign of the exponent. -/
  | markSign
  | exponent
  deriving DecidableEq, Repr

/-- How a number goes on with a character. -/
def NumberPart.next? (part : NumberPart) (c : Char) : Option NumberPart :=
  match part with
  | .sign => if c = '0' then some .zero else if c.isDigit then some .whole else none
  | .zero =>
      if c = '.' then some .point else if c = 'e' ∨ c = 'E' then some .mark else none
  | .whole =>
      if c.isDigit then some .whole
      else if c = '.' then some .point
      else if c = 'e' ∨ c = 'E' then some .mark
      else none
  | .point => if c.isDigit then some .fraction else none
  | .fraction =>
      if c.isDigit then some .fraction else if c = 'e' ∨ c = 'E' then some .mark else none
  | .mark =>
      if c.isDigit then some .exponent else if c = '+' ∨ c = '-' then some .markSign else none
  | .markSign => if c.isDigit then some .exponent else none
  | .exponent => if c.isDigit then some .exponent else none

/-- Whether a number may end here. -/
def NumberPart.isComplete : NumberPart → Bool
  | .zero | .whole | .fraction | .exponent => true
  | .sign | .point | .mark | .markSign => false

/-- What the scanner is in the middle of.  Letters and pieces are kept last first. -/
inductive Scanning
  | nothing
  | word (letters : List Char)
  | number (part : NumberPart)
  | string (pieces : List Piece)
  /-- After a backslash. -/
  | escape (pieces : List Piece)
  /-- After a backslash, a `u` and `count` hexadecimal digits. -/
  | unit (pieces : List Piece) (count value : Nat)
  deriving DecidableEq, Repr

/-- The token that a word stands for. -/
def wordToken? (letters : List Char) : Option Token :=
  if letters = ['n', 'u', 'l', 'l'] then some .null
  else if letters = ['t', 'r', 'u', 'e'] then some (.bool true)
  else if letters = ['f', 'a', 'l', 's', 'e'] then some (.bool false)
  else none

/-- The value of a hexadecimal digit. -/
def hexDigit? (c : Char) : Option Nat :=
  if c.isDigit then some (c.toNat - '0'.toNat)
  else if 'a' ≤ c ∧ c ≤ 'f' then some (c.toNat - 'a'.toNat + 10)
  else if 'A' ≤ c ∧ c ≤ 'F' then some (c.toNat - 'A'.toNat + 10)
  else none

/-- The character that a backslash and a letter stand for. -/
def escaped? (c : Char) : Option Char :=
  if c = '"' ∨ c = '\\' ∨ c = '/' then some c
  else if c = 'b' then some '\x08'
  else if c = 'f' then some '\x0c'
  else if c = 'n' then some '\n'
  else if c = 'r' then some '\r'
  else if c = 't' then some '\t'
  else none

/-- Read a character between two tokens: the token that it is by itself, and what it
    begins. -/
def begin? (c : Char) : Option (List Token × Scanning) :=
  if c = ' ' ∨ c = '\n' ∨ c = '\t' ∨ c = '\r' then some ([], .nothing)
  else if c = '\x7b' then some ([.openBrace], .nothing)
  else if c = '\x7d' then some ([.closeBrace], .nothing)
  else if c = '[' then some ([.openBracket], .nothing)
  else if c = ']' then some ([.closeBracket], .nothing)
  else if c = ',' then some ([.comma], .nothing)
  else if c = ':' then some ([.colon], .nothing)
  else if c = '"' then some ([], .string [])
  else if c = '-' then some ([], .number .sign)
  else if c = '0' then some ([], .number .zero)
  else if c.isDigit then some ([], .number .whole)
  else if c.isLower then some ([], .word [c])
  else none

/-- The tokens that end with the text. -/
def Scanning.finish? : Scanning → Option (List Token)
  | .nothing => some []
  | .word letters => (wordToken? letters.reverse).map ([·])
  | .number part => if part.isComplete then some [.number] else none
  | .string _ | .escape _ | .unit _ _ _ => none

/-- Read one character: the tokens that end with it or before it, and what comes
    next. -/
def Scanning.step? (scanning : Scanning) (c : Char) : Option (List Token × Scanning) :=
  match scanning with
  | .nothing => begin? c
  | .word letters =>
      if c.isLower then some ([], .word (c :: letters))
      else
        match scanning.finish?, begin? c with
        | some ended, some (begun, next) => some (ended ++ begun, next)
        | _, _ => none
  | .number part =>
      match part.next? c with
      | some next => some ([], .number next)
      | none =>
          match scanning.finish?, begin? c with
          | some ended, some (begun, next) => some (ended ++ begun, next)
          | _, _ => none
  | .string pieces =>
      if c = '"' then some ([.string ((contentOf pieces.reverse).map String.ofList)], .nothing)
      else if c = '\\' then some ([], .escape pieces)
      else if c.toNat < 0x20 then none
      else some ([], .string (.char c :: pieces))
  | .escape pieces =>
      if c = 'u' then some ([], .unit pieces 0 0)
      else (escaped? c).map fun e => ([], .string (.char e :: pieces))
  | .unit pieces count value =>
      match hexDigit? c with
      | none => none
      | some digit =>
          let value := value * 16 + digit
          if count = 3 then some ([], .string (.unit value :: pieces))
          else some ([], .unit pieces (count + 1) value)

/-- The tokens of the rest of a text. -/
def scanFrom (scanning : Scanning) : List Char → Option (List Token)
  | [] => scanning.finish?
  | c :: rest =>
      match scanning.step? c with
      | none => none
      | some (tokens, next) => (scanFrom next rest).map (tokens ++ ·)

/-- The tokens of a text, if it divides into tokens. -/
def tokens? (text : String) : Option (List Token) := scanFrom .nothing text.toList

end Retrace.Json
