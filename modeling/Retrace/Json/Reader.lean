import Retrace.Json.Token

/-!
# Reading JSON

The reader goes through the tokens once.  It keeps the arrays and objects that are
open around the current place, the innermost first, so that it needs no recursion
on their depth and values may be nested as deep as the text likes.
-/

namespace Retrace.Json

/-- An array or object that is open.  What it holds already is kept last first. -/
inductive Frame
  | array (items : List Value)
  /-- The value of the member `name` is being read. -/
  | object (members : List (Option String × Value)) (name : Option String)

/-- What the reader is waiting for. -/
inductive Reading
  /-- A value. -/
  | value (around : List Frame)
  /-- The first item of an array, or its end. -/
  | firstItem (around : List Frame)
  /-- The first name of an object, or its end. -/
  | firstName (around : List Frame)
  /-- The next name of an object. -/
  | name (members : List (Option String × Value)) (around : List Frame)
  /-- The colon behind a name. -/
  | colon (members : List (Option String × Value)) (name : Option String)
      (around : List Frame)
  /-- Whatever goes on behind a value that is complete. -/
  | complete (value : Value) (around : List Frame)

/-- Read the first token of a value. -/
def Reading.beginValue? (around : List Frame) : Token → Option Reading
  | .null => some (.complete .null around)
  | .bool truth => some (.complete (.bool truth) around)
  | .number => some (.complete .number around)
  | .string content => some (.complete (.string content) around)
  | .openBracket => some (.firstItem around)
  | .openBrace => some (.firstName around)
  | .closeBracket | .closeBrace | .comma | .colon => none

/-- Read one token. -/
def Reading.step? : Reading → Token → Option Reading
  | .value around, token => beginValue? around token
  | .firstItem around, .closeBracket => some (.complete (.array []) around)
  | .firstItem around, token => beginValue? (.array [] :: around) token
  | .firstName around, .closeBrace => some (.complete (.object []) around)
  | .firstName around, .string key => some (.colon [] key around)
  | .name members around, .string key => some (.colon members key around)
  | .colon members key around, .colon => some (.value (.object members key :: around))
  | .complete item (.array items :: around), .comma =>
      some (.value (.array (item :: items) :: around))
  | .complete item (.array items :: around), .closeBracket =>
      some (.complete (.array (item :: items).reverse) around)
  | .complete item (.object members key :: around), .comma =>
      some (.name ((key, item) :: members) around)
  | .complete item (.object members key :: around), .closeBrace =>
      some (.complete (.object ((key, item) :: members).reverse) around)
  | _, _ => none

/-- The value of a sequence of tokens. -/
def valueOf? (reading : Reading) : List Token → Option Value
  | [] =>
      match reading with
      | .complete value [] => some value
      | _ => none
  | token :: rest =>
      match reading.step? token with
      | none => none
      | some next => valueOf? next rest

/-- The value that a JSON text stands for. -/
def read? (text : String) : Option Value :=
  match tokens? text with
  | none => none
  | some tokens => valueOf? (.value []) tokens

end Retrace.Json
