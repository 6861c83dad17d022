import Retrace.Proofs.Edit.Turn
import Retrace.Proofs.Text.Lines

/-!
# Lines and columns around an edit

An edit leaves the text in front of it and the text behind it as they are.  So a place in front of
it keeps its position (`Edit.Turns.position?_front`).  A place behind it moves down by the lines
that the edit adds and up by those that it removes, and its column stays if the place is on a later
line than the end of the inserted text (`Edit.Turns.position?_behind`).  On the line where the
inserted text ends the column moves as well, because it counts from in front of the edit or from
inside it.

Both follow from counting bytes.  The bytes behind the edit are the same in both texts.  After the
first line feed among them the column no longer depends on where they were counted from.
-/

namespace Retrace

/-- The number of line feeds in a text. -/
def Text.lineFeeds (text : String) : Nat := (Text.bytes text).count lineFeed

theorem Text.lineFeeds_append (front back : String) :
    Text.lineFeeds (front ++ back) = Text.lineFeeds front + Text.lineFeeds back := by
  rw [Text.lineFeeds, Text.bytes_append, List.count_append]
  rfl

/-- The bytes of a text up to a place behind its front: those of the front, and some of the back. -/
theorem Text.take_bytes_append_add (front back : String) (count : Nat) :
    (Text.bytes (front ++ back)).take (front.utf8ByteSize + count) =
      Text.bytes front ++ (Text.bytes back).take count := by
  rw [Text.bytes_append, ← Text.length_bytes, List.take_length_add_append]

namespace Lines

open Text (lineFeeds)

variable {front other back : String} {count : Nat} {position place : Position}

/-- The position of a place behind the front of a text, counted from the end of the front. -/
theorem position?_append (hle : count ≤ back.utf8ByteSize) :
    (ofText (front ++ back)).position? (front.utf8ByteSize + count) =
      some (((Text.bytes back).take count).foldl Position.past
        ((Text.bytes front).foldl Position.past ⟨0, 0⟩)) := by
  have hsize : front.utf8ByteSize + count ≤ (front ++ back).utf8ByteSize := by
    rw [String.utf8ByteSize_append]
    omega
  rw [position?_ofText hsize, Text.take_bytes_append_add, List.foldl_append]

theorem line_of_position?_append (hle : count ≤ back.utf8ByteSize)
    (h : (ofText (front ++ back)).position? (front.utf8ByteSize + count) = some position) :
    position.line = lineFeeds front + ((Text.bytes back).take count).count lineFeed := by
  rw [position?_append hle, Option.some.injEq] at h
  rw [← h, Position.line_foldl_past, Position.line_foldl_past, Nat.zero_add]
  rfl

/-- Behind a line feed of the back, a column does not depend on the front. -/
theorem column_of_position?_append (hle : count ≤ back.utf8ByteSize)
    (hmem : lineFeed ∈ (Text.bytes back).take count)
    (h : (ofText (front ++ back)).position? (front.utf8ByteSize + count) = some position)
    (h' : (ofText (other ++ back)).position? (other.utf8ByteSize + count) = some place) :
    position.column = place.column := by
  rw [position?_append hle, Option.some.injEq] at h h'
  rw [← h, ← h']
  exact Position.column_foldl_past (Or.inl hmem)

end Lines

namespace Edit

open Text (lineFeeds)

variable {edit : Edit} {before after other : String} {offset count : Nat} {edge position : Position}

/-- Undoing an edit gives one text only. -/
theorem Turns.before_eq (h : edit.Turns before after) (h' : edit.Turns other after) :
    before = other := by
  obtain ⟨front, back, rfl, hafter, hfront⟩ := h
  obtain ⟨front', back', rfl, hafter', hfront'⟩ := h'
  have hsize : front.utf8ByteSize = front'.utf8ByteSize := hfront.trans hfront'.symm
  have hsame : front ++ (edit.inserted ++ back) = front' ++ (edit.inserted ++ back') := by
    rw [← String.append_assoc, ← String.append_assoc, ← hafter, ← hafter']
  obtain ⟨middle, rfl, hback⟩ := Text.exists_append_of_size_le hsame (Nat.le_of_eq hsize)
  -- the two fronts end at the start of the edit, so nothing is between their ends
  have hmiddle : middle = "" := by
    rw [String.utf8ByteSize_append] at hsize
    exact String.utf8ByteSize_eq_zero_iff.1 (by omega)
  subst hmiddle
  rw [String.empty_append, String.append_right_inj] at hback
  rw [hback, String.append_empty]

/-- Up to the start of an edit, places keep their positions. -/
theorem Turns.position?_front (h : edit.Turns before after) (hle : offset ≤ edit.offset) :
    (Lines.ofText after).position? offset = (Lines.ofText before).position? offset := by
  have hbefore : offset ≤ before.utf8ByteSize := by
    have := h.removed_le
    omega
  have hafter : offset ≤ after.utf8ByteSize := by
    have := h.inserted_le
    omega
  rw [Lines.position?_ofText hbefore, Lines.position?_ofText hafter]
  obtain ⟨front, back, rfl, rfl, hfront⟩ := h
  have hin : offset ≤ front.utf8ByteSize := hfront ▸ hle
  rw [String.append_assoc, String.append_assoc, Text.take_bytes_append hin,
    Text.take_bytes_append hin]

/-- On a line behind the one in which the inserted text ends, a place keeps its column, and the line
moves by the lines that the edit removes and inserts. -/
theorem Turns.position?_behind (h : edit.Turns before after)
    (hedge : (Lines.ofText after).position? (edit.offset + edit.inserted.utf8ByteSize) = some edge)
    (hposition : (Lines.ofText after).position? offset = some position)
    (hline : edge.line < position.line) :
    edit.offset + edit.inserted.utf8ByteSize < offset ∧
      lineFeeds edit.inserted ≤ position.line ∧
      (Lines.ofText before).position?
          (offset - edit.inserted.utf8ByteSize + edit.removed.utf8ByteSize) =
        some ⟨position.line - lineFeeds edit.inserted + lineFeeds edit.removed,
          position.column⟩ := by
  have hlt : edit.offset + edit.inserted.utf8ByteSize < offset :=
    (Lines.position?_lt_iff hedge hposition).2 (Or.inl hline)
  have hoffset : offset ≤ after.utf8ByteSize :=
    Lines.isSome_position?_iff.1 (Option.isSome_of_mem hposition)
  obtain ⟨front, back, rfl, rfl, hfront⟩ := h
  obtain ⟨count, rfl⟩ := Nat.exists_eq_add_of_le (Nat.le_of_lt hlt)
  have hback : count ≤ back.utf8ByteSize := by
    simp only [String.utf8ByteSize_append] at hoffset
    omega
  have hinserted : (front ++ edit.inserted).utf8ByteSize =
      edit.offset + edit.inserted.utf8ByteSize := by
    rw [String.utf8ByteSize_append, hfront]
  have hremoved : (front ++ edit.removed).utf8ByteSize + count =
      edit.offset + edit.inserted.utf8ByteSize + count - edit.inserted.utf8ByteSize +
        edit.removed.utf8ByteSize := by
    rw [String.utf8ByteSize_append, hfront]
    omega
  have hedgeLine := Lines.line_of_position?_append (Nat.zero_le _) (hinserted.symm ▸ hedge)
  have hpositionLine := Lines.line_of_position?_append hback (hinserted.symm ▸ hposition)
  rw [List.take_zero, List.count_nil, Nat.add_zero, Text.lineFeeds_append] at hedgeLine
  rw [Text.lineFeeds_append] at hpositionLine
  -- the later line begins in the common back
  have hmem : lineFeed ∈ (Text.bytes back).take count := List.count_pos_iff.1 (by omega)
  obtain ⟨⟨line, column⟩, hplace⟩ : ∃ place,
      (Lines.ofText (front ++ edit.removed ++ back)).position?
        ((front ++ edit.removed).utf8ByteSize + count) = some place :=
    ⟨_, Lines.position?_append hback⟩
  have hplaceLine : line = _ := Lines.line_of_position?_append hback hplace
  rw [Text.lineFeeds_append] at hplaceLine
  have hcolumn : position.column = column :=
    Lines.column_of_position?_append hback hmem (hinserted.symm ▸ hposition) hplace
  refine ⟨hlt, by omega, ?_⟩
  rw [← hremoved, hplace, Option.some.injEq, Position.mk.injEq]
  exact ⟨by omega, hcolumn.symm⟩

end Edit

end Retrace
