import Retrace.Edit.Basic
import Retrace.Table.Basic

/-!
# Named offsets

A session keeps a few places of a text under names, and every edit of the text
moves them along.  A place keeps its name and its rank among the others whatever
happens to its offset.

`Marks.Call` lists the calls that change named offsets, and `Marks.step` makes one.
-/

namespace Retrace

structure MarkName where
  text : String
  deriving DecidableEq, Repr

namespace MarkName

/-- Where completion was asked for. -/
def start : MarkName := ⟨"startOffset"⟩

/-- Where the selection ended at that moment.  Without a selection it is the start. -/
def selectionEnd : MarkName := ⟨"selectionEnd"⟩

/-- Where the identifier ended that the caret was in. -/
def identifierEnd : MarkName := ⟨"identifierEnd"⟩

def describe (name : MarkName) : String := s!"OffsetKey({name.text})"

end MarkName

/-- Named offsets, in the order in which they were first named. -/
abbrev Marks := Table MarkName Offset

/-- Carry one offset over an edit.  An offset that cannot be carried stays. -/
def Edit.shift (edit : Edit) (offset : Nat) : Except Fault Unit × Offset :=
  match edit.carry offset with
  | .error fault => (.error fault, offset)
  | .ok moved => (.ok (), moved)

/-- Carry every named offset over an edit.  If the end of the removed text is out of
    range, none is moved.  Otherwise they are moved in turn up to the first that
    cannot be, and those moved before it stay moved. -/
def Marks.carry (marks : Marks) (edit : Edit) : Except Fault Unit × Marks :=
  match edit.removedSpan with
  | .error fault => (.error fault, marks)
  | .ok _ => marks.sweep edit.shift

/-- The names are the same after an edit, in the same order. -/
@[simp] theorem Marks.keys_carry (marks : Marks) (edit : Edit) :
    (Marks.carry marks edit).2.keys = marks.keys := by
  unfold Marks.carry
  split
  · rfl
  · exact Table.keys_sweep marks edit.shift

namespace Marks

/-! ### Calls -/

inductive Call
  /-- Keep an offset under a name, in place of any that is kept there. -/
  | add (name : MarkName) (offset : Nat)
  | remove (name : MarkName)
  /-- Carry all offsets over an edit. -/
  | carry (edit : Edit)
  deriving DecidableEq, Repr

/-- Make one call.  It breaks off if an offset cannot be carried. -/
def step (marks : Marks) : Call → Checked Marks
  | .add name offset => .ok (Table.insert marks name offset)
  | .remove name => .ok (Table.erase marks name)
  | .carry edit =>
      match Marks.carry marks edit with
      | (.error fault, _) => .error fault
      | (.ok (), carried) => .ok carried

/-- Make calls in turn, as long as none breaks off. -/
def run (marks : Marks) : List Call → Checked Marks
  | [] => .ok marks
  | call :: rest =>
      match Marks.step marks call with
      | .error fault => .error fault
      | .ok next => Marks.run next rest

end Marks

end Retrace
