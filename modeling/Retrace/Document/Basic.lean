import Retrace.Document.Refusal
import Retrace.Edit.Basic
import Retrace.Text.Lines

/-!
# Documents

A document is a text with a number, two stamps and, for a completion copy, the
number of the document it was made from.  There are three ways to change the text:
replace a span (`Document.replace`), make a reported edit whose removed text has to
be there (`Document.apply`), and write a new text (`Document.setText`).  Each
success advances the stamp of the last change by one.
-/

namespace Retrace

/-- A text with its history counters. -/
structure Document where
  id : DocumentId
  /-- The path it was opened under.  A copy has none. -/
  path : Option String
  text : String
  /-- The state after the last change. -/
  modified : Stamp
  /-- The state that was last committed. -/
  committed : Stamp
  /-- The document this one is a completion copy of. -/
  copyOf : Option DocumentId
  deriving DecidableEq, Repr

namespace Document

/-- A document that was just opened. -/
def fresh (id : DocumentId) (path : Option String) (text : String)
    (copyOf : Option DocumentId) : Document :=
  ⟨id, path, text, .initial, .initial, copyOf⟩

/-- The length of the text in bytes. -/
def length (document : Document) : Nat := document.text.utf8ByteSize

def isEmpty (document : Document) : Bool := document.text = ""

/-- Whether there are changes since the last commit. -/
def hasUncommitted (document : Document) : Bool := document.modified ≠ document.committed

/-- The lines of the text as it is now. -/
def lines (document : Document) : Lines := .ofText document.text

/-- Cut the text along a span. -/
def cut (document : Document) (span : Span) : Except Refusal Text.Cut :=
  match Text.cut document.text span with
  | .ok parts => .ok parts
  | .error .beyondEnd => .error (.outOfBounds document.id span document.length)
  | .error (.insideCharacter offset) => .error (.notCharBoundary document.id offset)

/-- Write a new text. -/
def setText (document : Document) (text : String) : Document :=
  { document with text, modified := document.modified.next }

/-- Replace a span, and say which edit that was. -/
def replace (document : Document) (span : Span) (text : String) :
    Except Refusal (Edit × Document) :=
  match document.cut span with
  | .error refusal => .error refusal
  | .ok parts =>
      .ok (⟨span.start, parts.inside, text⟩, document.setText (parts.replace text))

/-- Make an edit.  The text that it removes has to be the text at its offset. -/
def apply (document : Document) (edit : Edit) : Except Failure Document :=
  match edit.removedSpan with
  | .error fault => .error (.broken fault)
  | .ok span =>
      match document.cut span with
      | .error refusal => .error (.refused refusal)
      | .ok parts =>
          if parts.inside = edit.removed then
            .ok (document.setText (parts.replace edit.inserted))
          else
            .error (.refused
              (.inconsistentEdit document.id edit.offset edit.removed parts.inside))

/-- Mark all changes so far as committed. -/
def commit (document : Document) : Document :=
  { document with committed := document.modified }

end Document

end Retrace
