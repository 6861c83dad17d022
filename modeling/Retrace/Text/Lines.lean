import Retrace.Text.Cut

/-!
# Lines and columns

A line ends at a line feed and at nothing else, so a text with `n` line feeds has
`n + 1` lines, and an empty text has one.  Lines and columns count from 0, and a
column is a number of bytes.

`Lines.ofText` takes from a text all that is needed to go from offsets to
positions (`Lines.position?`) and back (`Lines.offset?`): where the lines after
the first start, and where the text ends.  It is a snapshot, and later edits of
the text do not reach it.
-/

namespace Retrace

/-- A line and a byte column in it, both from 0. -/
structure Position where
  line : Nat
  column : Nat
  deriving DecidableEq, Repr

namespace Position

/-- Positions are ordered by line, and by column within a line. -/
instance : Ord Position where
  compare p q := (compare p.line q.line).then (compare p.column q.column)

instance : LT Position where
  lt p q := p.line < q.line ∨ p.line = q.line ∧ p.column < q.column

instance (p q : Position) : Decidable (p < q) :=
  inferInstanceAs (Decidable (p.line < q.line ∨ p.line = q.line ∧ p.column < q.column))

/-- A position as it is shown to people, who count lines and columns from 1. -/
def display (p : Position) : Checked String :=
  match Offset.advance p.line 1 with
  | .error fault => .error fault
  | .ok line =>
      match Offset.advance p.column 1 with
      | .error fault => .error fault
      | .ok column => .ok s!"{line}:{column}"

end Position

/-- The lines of a text: where each line after the first starts, and the length of
    the whole.  The first line starts at 0. -/
structure Lines where
  laterStarts : List Offset
  length : Nat
  deriving DecidableEq, Repr

namespace Lines

/-- The offsets behind the line feeds of a list of characters that starts at
    `offset`. -/
def startsFrom (offset : Nat) : List Char → List Offset
  | [] => []
  | c :: rest =>
      let next := offset + c.utf8Size
      if c = '\n' then next :: startsFrom next rest else startsFrom next rest

def ofText (text : String) : Lines where
  laterStarts := startsFrom 0 text.toList
  length := text.utf8ByteSize

def count (lines : Lines) : Nat := lines.laterStarts.length + 1

/-- Follow the line starts up to the last one that is not behind `offset`.  The
    line reached so far has number `line` and starts at `start`. -/
def locate (offset line start : Nat) : List Offset → Position
  | [] => ⟨line, offset - start⟩
  | next :: later =>
      if next ≤ offset then locate offset (line + 1) next later
      else ⟨line, offset - start⟩

/-- The position of an offset, if the text reaches that far. -/
def position? (lines : Lines) (offset : Nat) : Option Position :=
  if offset ≤ lines.length then some (locate offset 0 0 lines.laterStarts) else none

/-- Where a line starts and where its text ends, for the line `number` lines after
    the one at `start`.  A line ends before its line feed, and the last one with the
    whole text. -/
def extent? (length start : Nat) : List Offset → Nat → Option (Offset × Offset)
  | [], 0 => some (start, length)
  | next :: _, 0 => some (start, next - 1)
  | [], _ + 1 => none
  | next :: later, number + 1 => extent? length next later number

/-- The offset of a position, if there is such a line and the column is within it.
    A column so far out that the sum passes the largest offset is not within it. -/
def offset? (lines : Lines) (position : Position) : Option Offset :=
  match extent? lines.length 0 lines.laterStarts position.line with
  | none => none
  | some (start, stop) =>
      match Offset.advance start position.column with
      | .error _ => none
      | .ok offset => if offset ≤ stop then some offset else none

end Lines

theorem Position.compare_eq_lt_iff {p q : Position} : compare p q = .lt ↔ p < q := by
  show (compare p.line q.line).then (compare p.column q.column) = .lt ↔
    p.line < q.line ∨ p.line = q.line ∧ p.column < q.column
  rw [Ordering.then_eq_lt, Nat.compare_eq_lt, Nat.compare_eq_eq, Nat.compare_eq_lt]

end Retrace
