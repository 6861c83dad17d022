import Retrace.Text.CodePoint
import Retrace.Text.UnseenRanges

/-!
# Quoted text

The form in which a text is shown inside a message: between double quotes, with
every character either shown as it is or written as an escape, so that the message
says exactly which text is meant.
-/

namespace Retrace.Text

/-- A character in a quoted text.  A double quote and a backslash get a backslash,
    four control characters have a letter, and a character that does not show by
    itself is written by its code point in hexadecimal.  A single quote stays. -/
def quoteChar (c : Char) : String :=
  match c with
  | '"' => "\\\""
  | '\\' => "\\\\"
  | '\t' => "\\t"
  | '\r' => "\\r"
  | '\n' => "\\n"
  | '\x00' => "\\0"
  | _ =>
      if inRanges unseenRanges c then
        "\\u\x7b" ++ String.ofList (Nat.toDigits 16 c.toNat) ++ "\x7d"
      else c.toString

def quote (text : String) : String :=
  "\"" ++ String.join (text.toList.map quoteChar) ++ "\""

end Retrace.Text
