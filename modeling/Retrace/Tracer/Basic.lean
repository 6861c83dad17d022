import Retrace.Edit.Log
import Retrace.Tracer.Policy

/-!
# Tracers

A tracer takes offsets in a completion copy to offsets in its source, the document
that the copy was made from.  It holds a log of what lies between the two.  An edit
of the source is turned round and staged, where it changes no answer, and a commit
that the policy lets through moves everything staged to the end of the log.  So what
the user types in the meantime does not move the answers.
-/

namespace Retrace

/-- The number of a tracer.  Later tracers have larger numbers. -/
structure Generation where
  number : Nat
  deriving DecidableEq, Repr

def Generation.describe (generation : Generation) : String :=
  s!"TranslatorId({generation.number})"

/-- The way from a copy back to its source. -/
structure Tracer where
  id : Generation
  copy : DocumentId
  source : DocumentId
  log : Log
  /-- Inverses of edits of the source that no commit has merged, oldest first. -/
  staged : List Edit
  /-- The committed stamp of the source at the start or at the last merge. -/
  baseline : Stamp
  deriving DecidableEq, Repr

namespace Tracer

def start (id : Generation) (copy source : DocumentId) (creation : Edit)
    (baseline : Stamp) : Tracer :=
  ⟨id, copy, source, .start creation, [], baseline⟩

def record (tracer : Tracer) (edit : Edit) : Tracer :=
  { tracer with staged := tracer.staged ++ [edit.inverse] }

/-- Move everything staged to the log, if the policy lets the commit through.  The
    number says how many edits moved. -/
def mergeStaged (tracer : Tracer) (committed : Stamp) (policy : CommitPolicy) :
    Nat × Tracer :=
  if policy.shouldMerge tracer.baseline committed then
    (tracer.staged.length,
      { tracer with
        log := tracer.log.append tracer.staged
        staged := []
        baseline := committed })
  else (0, tracer)

def retrace (tracer : Tracer) (offset : Nat) : Checked (Option Offset) :=
  tracer.log.retrace offset

def retraceSpan (tracer : Tracer) (span : Span) : Checked (Option Span) :=
  tracer.log.retraceSpan span

end Tracer

end Retrace
