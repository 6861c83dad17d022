/-!
# Offsets and spans

All places in a text are counted in UTF-8 bytes from its start, in 32 bits.  A
sum of offsets that leaves this range, or a span that would stop before it
starts, breaks the calculation off with a `Fault`.  A fault is not an answer
about the text: "this offset has no counterpart" is an ordinary result, and a
fault says that the question could not be worked out at all.
-/

namespace Retrace

/-- A place in a text: the number of UTF-8 bytes before it.  The name is for answers; what is
    calculated with is a plain number. -/
abbrev Offset := Nat

/-- The largest offset, `2 ^ 32 - 1`. -/
def Offset.limit : Nat := 4294967295

/-- What breaks a calculation with offsets off. -/
inductive Fault
  /-- A sum passed the largest offset. -/
  | overflow
  /-- A span would stop before it starts. -/
  | reversed
  deriving DecidableEq, Repr

abbrev Checked := Except Fault

/-- The offset that a byte count becomes in 32 bits.  Bits above these are lost. -/
def Offset.wrap (count : Nat) : Offset := count % (Offset.limit + 1)

/-- The offset `count` bytes behind `offset`, within the limit. -/
def Offset.advance (offset count : Nat) : Checked Offset :=
  if offset + count ≤ Offset.limit then .ok (offset + count) else .error .overflow

/-- The bytes from one offset up to another. -/
structure Span where
  start : Nat
  stop : Nat
  start_le_stop : start ≤ stop
  deriving DecidableEq, Repr

namespace Span

/-- The span between two offsets, given in this order. -/
def between (start stop : Nat) : Checked Span :=
  if h : start ≤ stop then .ok ⟨start, stop, h⟩ else .error .reversed

/-- The span of `length` bytes from an offset on. -/
def ofLength (start length : Nat) : Checked Span :=
  if start + length ≤ Offset.limit then
    .ok ⟨start, start + length, Nat.le_add_right start length⟩
  else .error .overflow

def caret (offset : Nat) : Span := ⟨offset, offset, Nat.le_refl offset⟩

def length (span : Span) : Nat := span.stop - span.start

end Span

theorem Offset.wrap_of_le {count : Nat} (h : count ≤ Offset.limit) : Offset.wrap count = count :=
  Nat.mod_eq_of_lt (Nat.lt_succ_of_le h)

theorem Offset.advance_eq_ok_iff {offset result count : Nat} :
    Offset.advance offset count = .ok result ↔
      result = offset + count ∧ offset + count ≤ Offset.limit := by
  unfold Offset.advance
  split
  · next h => simp [h, eq_comm]
  · next h => simp [h]

theorem Span.ofLength_eq_ok_iff {start length : Nat} {span : Span} :
    Span.ofLength start length = .ok span ↔
      span.start = start ∧ span.stop = start + length ∧ start + length ≤ Offset.limit := by
  unfold Span.ofLength
  split
  · next h =>
      cases span
      simp [h, eq_comm]
  · next h => simp [h]

end Retrace
