import Retrace.Edit.Marks
import Retrace.Text.Lines
import Retrace.Document.Name

/-!
# Sessions

A completion session belongs to a copy and lasts as long as the copy's tracer is
live.  It keeps two things about the source: a few named offsets, which every edit
of the source moves at once, and the lines of the source as they were when the
tracer's log last explained the text.  The lines are what positions are answered
in, so that edits that wait for a commit do not move them.
-/

namespace Retrace

/-- What is kept about the source during a completion. -/
structure Session where
  source : DocumentId
  /-- Named offsets in the source as it is now. -/
  marks : Marks
  /-- The lines of the source as it was at the start or at the last merge that left
      nothing staged. -/
  frame : Lines
  deriving DecidableEq, Repr

namespace Session

/-- The named offsets of a session that replaces a span. -/
def marksOf (span : Span) : Marks :=
  ((Table.empty.insert .start span.start).insert .selectionEnd span.start).insert
    .identifierEnd span.stop

def start (source : DocumentId) (span : Span) (frame : Lines) : Session :=
  ⟨source, marksOf span, frame⟩

/-- Carry the named offsets over an edit, if it is an edit of this session's
    source. -/
def carry (source : DocumentId) (edit : Edit) (session : Session) :
    Except Fault Unit × Session :=
  if session.source = source then
    let carried := Marks.carry session.marks edit
    (carried.1, { session with marks := carried.2 })
  else (.ok (), session)

end Session

end Retrace
