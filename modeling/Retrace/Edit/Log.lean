import Retrace.Edit.Basic

/-!
# Edit logs

A log relates a copy of a text to the text it was made from.  Its first entry is
the edit that made the copy, and every later entry is one more step on the way
back.  To take an offset from the copy to the text behind the log, the entries are
undone in turn, the last one first and the one that made the copy at the end.
-/

namespace Retrace

/-- Take an offset back through a list of edits, the last edit first.  The first
    edit without an answer ends the way back. -/
def retraceThrough : List Edit → Nat → Checked (Option Offset)
  | [], offset => .ok (some offset)
  | edit :: later, offset =>
      match retraceThrough later offset with
      | .error fault => .error fault
      | .ok none => .ok none
      | .ok (some reached) => edit.retrace reached

/-- The edit that made a copy, and the edits that follow it, oldest first. -/
structure Log where
  creation : Edit
  later : List Edit
  deriving DecidableEq, Repr

namespace Log

/-- The log of a fresh copy. -/
def start (creation : Edit) : Log := ⟨creation, []⟩

/-- All edits, the one that made the copy first. -/
def entries (log : Log) : List Edit := log.creation :: log.later

/-- The number of edits. -/
def size (log : Log) : Nat := log.entries.length

/-- Whether there are no edits, which never happens. -/
def isEmpty (log : Log) : Bool := log.entries.isEmpty

/-- Put edits at the end, in their order. -/
def append (log : Log) (edits : List Edit) : Log := { log with later := log.later ++ edits }

/-- Put one edit at the end. -/
def push (log : Log) (edit : Edit) : Log := log.append [edit]

/-- Take an offset back through the whole log. -/
def retrace (log : Log) (offset : Nat) : Checked (Option Offset) :=
  retraceThrough log.entries offset

/-- Take both ends of a span back, the start first.  There is no answer if an end has
    none, or if the ends come out in the wrong order. -/
def retraceSpan (log : Log) (span : Span) : Checked (Option Span) :=
  match log.retrace span.start with
  | .error fault => .error fault
  | .ok none => .ok none
  | .ok (some start) =>
      match log.retrace span.stop with
      | .error fault => .error fault
      | .ok none => .ok none
      | .ok (some stop) =>
          .ok (if h : start ≤ stop then some ⟨start, stop, h⟩ else none)

@[simp] theorem entries_start (creation : Edit) : (start creation).entries = [creation] := rfl

@[simp] theorem entries_append (log : Log) (edits : List Edit) :
    (log.append edits).entries = log.entries ++ edits := rfl

@[simp] theorem isEmpty_eq_false (log : Log) : log.isEmpty = false := rfl

end Log

/-- The way back through two lists of edits is the way back through the second and then
    through the first. -/
theorem retraceThrough_append (front back : List Edit) (offset : Nat) :
    retraceThrough (front ++ back) offset =
      match retraceThrough back offset with
      | .error fault => .error fault
      | .ok none => .ok none
      | .ok (some reached) => retraceThrough front reached := by
  induction front with
  | nil =>
      rw [List.nil_append]
      rcases retraceThrough back offset with fault | (_ | reached) <;> rfl
  | cons edit rest ih =>
      simp only [List.cons_append, retraceThrough, ih]
      rcases retraceThrough back offset with fault | (_ | reached) <;> rfl

end Retrace
