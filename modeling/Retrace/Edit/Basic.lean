import Retrace.Text.Cut
import Retrace.Text.Quoted

/-!
# Edits

An edit replaces one stretch of a text by another.  It is kept as a record with
both texts, so it says what it did and how to undo it without the text it was made
on.

An offset can be followed through an edit in both directions.  `Edit.retrace`
takes an offset from after the edit to before it, and has no answer for places
inside text that replaced other text.  `Edit.carry` takes an offset from before
the edit to after it, and always has an answer, because a place in text that goes
away moves to where the edit was made.
-/

namespace Retrace

/-- The replacement of `removed` by `inserted` at an offset.  Either text may be
    empty. -/
structure Edit where
  offset : Nat
  removed : String
  inserted : String
  deriving DecidableEq, Repr

namespace Edit

/-- The stretch that is replaced, in offsets from before the edit. -/
def removedSpan (edit : Edit) : Checked Span :=
  Span.ofLength edit.offset edit.removed.utf8ByteSize

/-- The stretch that replaces it, in offsets from after the edit. -/
def insertedSpan (edit : Edit) : Checked Span :=
  Span.ofLength edit.offset edit.inserted.utf8ByteSize

/-- Whether nothing is removed. -/
def isInsertion (edit : Edit) : Bool := edit.removed = ""

/-- The edit that undoes this one. -/
def inverse (edit : Edit) : Edit := ⟨edit.offset, edit.inserted, edit.removed⟩

/-- Take an offset from after the edit to before it.  Up to the start of the edit
    nothing moved.  Inside inserted text there is an answer only if nothing was
    removed: then all of it came from the start.  Behind the inserted text, offsets
    move by the difference of the lengths. -/
def retrace (edit : Edit) (offset : Nat) : Checked (Option Offset) :=
  match edit.insertedSpan with
  | .error fault => .error fault
  | .ok span =>
      if offset ≤ span.start then .ok (some offset)
      else if offset < span.stop then .ok (if edit.isInsertion then some span.start else none)
      else
        match Offset.advance (offset - span.length) edit.removed.utf8ByteSize with
        | .error fault => .error fault
        | .ok before => .ok (some before)

/-- Take an offset from before the edit to after it.  Up to the start of the edit
    nothing moves, a place inside removed text goes to the start, and behind it
    offsets move by the difference of the lengths. -/
def carry (edit : Edit) (offset : Nat) : Checked Offset :=
  match edit.removedSpan with
  | .error fault => .error fault
  | .ok span =>
      if offset ≤ span.start then .ok offset
      else if offset < span.stop then .ok span.start
      else Offset.advance (offset - span.length) edit.inserted.utf8ByteSize

/-- One line that shows an edit. -/
def describe (edit : Edit) : String :=
  let removed := Text.quote edit.removed
  let inserted := Text.quote edit.inserted
  s!"EventRecord({edit.offset}: {removed} -> {inserted})"

@[simp] theorem inverse_inverse (edit : Edit) : edit.inverse.inverse = edit := rfl

@[simp] theorem removedSpan_inverse (edit : Edit) :
    edit.inverse.removedSpan = edit.insertedSpan := rfl

@[simp] theorem insertedSpan_inverse (edit : Edit) :
    edit.inverse.insertedSpan = edit.removedSpan := rfl

end Edit

end Retrace
