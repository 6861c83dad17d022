import Mathlib.Algebra.GroupWithZero.Nat
import Retrace.Edit.Log
import Retrace.Proofs.Edit.Turn

/-!
# Outside the window of a log

A log touches a stretch of the text, from the first place at which an edit starts to the last
place at which inserted text ends.  Outside this window the order in which edits are undone
does not matter.  Ahead of the window an offset stays (`retraceThrough_of_aheadOf`), and behind it
an offset moves by the difference of all lengths (`retraceThrough_of_behind`).

The texts are related by the same edits in the opposite order: the edit at the head of the list
is the last step on the way to the copy, and the first that the bytes of the copy are taken back
through.  Both ways have to stay outside the window, wherever they are.  This is why behind the
window there has to be room for everything that the edits insert.
-/

namespace Retrace

variable {edits later : List Edit} {edit : Edit} {before after : String} {offset : Nat}

/-- How many bytes the edits of a list remove, all together. -/
def removedSize (edits : List Edit) : Nat :=
  (edits.map fun edit => edit.removed.utf8ByteSize).sum

/-- How many bytes the edits of a list insert, all together. -/
def insertedSize (edits : List Edit) : Nat :=
  (edits.map fun edit => edit.inserted.utf8ByteSize).sum

theorem removedSize_cons (edit : Edit) (later : List Edit) :
    removedSize (edit :: later) = edit.removed.utf8ByteSize + removedSize later := rfl

theorem insertedSize_cons (edit : Edit) (later : List Edit) :
    insertedSize (edit :: later) = edit.inserted.utf8ByteSize + insertedSize later := rfl

theorem removedSize_reverse (edits : List Edit) :
    removedSize edits.reverse = removedSize edits := by
  rw [removedSize, removedSize, List.map_reverse, List.sum_reverse]

theorem insertedSize_reverse (edits : List Edit) :
    insertedSize edits.reverse = insertedSize edits := by
  rw [insertedSize, insertedSize, List.map_reverse, List.sum_reverse]

/-- An offset that no edit of a list starts before. -/
def AheadOf (edits : List Edit) (offset : Nat) : Prop := ∀ edit ∈ edits, offset ≤ edit.offset

/-- An offset that is behind the inserted text of every edit, by more than all edits insert. -/
def Behind (edits : List Edit) (offset : Nat) : Prop :=
  ∀ edit ∈ edits, edit.offset + edit.inserted.utf8ByteSize + insertedSize edits < offset

instance (edits : List Edit) (offset : Nat) : Decidable (AheadOf edits offset) :=
  inferInstanceAs (Decidable (∀ edit ∈ edits, _))

instance (edits : List Edit) (offset : Nat) : Decidable (Behind edits offset) :=
  inferInstanceAs (Decidable (∀ edit ∈ edits, _))

/-- Behind the window of a list, an offset has room for the first edit. -/
theorem Behind.head_lt (h : Behind (edit :: later) offset) :
    edit.offset + edit.inserted.utf8ByteSize + edit.inserted.utf8ByteSize + insertedSize later <
      offset := by
  have hlt := h edit (List.mem_cons_self ..)
  rw [insertedSize_cons] at hlt
  omega

/-- An offset behind the window is still behind that of the later edits when it moves back by no
more than the first edit inserts. -/
theorem Behind.tail (h : Behind (edit :: later) offset) {moved : Nat}
    (hmoved : offset ≤ moved + edit.inserted.utf8ByteSize) : Behind later moved := by
  intro other hother
  have hlt := h other (List.mem_cons_of_mem _ hother)
  rw [insertedSize_cons] at hlt
  omega

/-! ### Answers -/

/-- With room for everything that the edits remove, no step of an answer leaves the range of
offsets. -/
theorem retraceThrough_of_room
    (hfits : ∀ edit ∈ edits, edit.offset + edit.inserted.utf8ByteSize ≤ Offset.limit)
    (hroom : offset + removedSize edits ≤ Offset.limit) :
    ∃ answer, retraceThrough edits offset = .ok answer ∧
      ∀ reached : Nat, answer = some reached → reached ≤ offset + removedSize edits := by
  induction edits with
  | nil =>
      refine ⟨some offset, rfl, ?_⟩
      rintro reached ⟨⟩
      exact Nat.le_add_right _ _
  | cons edit later ih =>
      rw [List.forall_mem_cons] at hfits
      rw [removedSize_cons] at hroom ⊢
      obtain ⟨answer, hlater, hbound⟩ := ih hfits.2 (by omega)
      simp only [retraceThrough, hlater]
      rcases Option.eq_none_or_eq_some answer with rfl | ⟨(moved : Nat), rfl⟩
      · exact ⟨none, rfl, fun _ hnone => by cases hnone⟩
      · have hmoved : moved ≤ offset + removedSize later := hbound moved rfl
        have hroom' : moved + edit.removed.utf8ByteSize ≤ Offset.limit := by omega
        obtain ⟨answer, hanswer, hle⟩ := edit.retrace_of_room hfits.1 hroom'
        refine ⟨answer, hanswer, ?_⟩
        intro reached hreached
        have hstep := hle reached hreached
        omega

/-- Ahead of the window offsets stay. -/
theorem retraceThrough_of_aheadOf
    (hfits : ∀ edit ∈ edits, edit.offset + edit.inserted.utf8ByteSize ≤ Offset.limit)
    (h : AheadOf edits offset) : retraceThrough edits offset = .ok (some offset) := by
  induction edits with
  | nil => rfl
  | cons edit later ih =>
      rw [List.forall_mem_cons] at hfits
      obtain ⟨hfirst, hrest⟩ := List.forall_mem_cons.1 h
      simp only [retraceThrough, ih hfits.2 hrest]
      exact Edit.retrace_of_le hfits.1 hfirst

/-- Behind the window offsets move by the difference of all lengths. -/
theorem retraceThrough_of_behind
    (hfits : ∀ edit ∈ edits, edit.offset + edit.inserted.utf8ByteSize ≤ Offset.limit)
    (h : Behind edits offset) (hroom : offset + removedSize edits ≤ Offset.limit) :
    retraceThrough edits offset =
      .ok (some (offset + removedSize edits - insertedSize edits)) := by
  induction edits with
  | nil => rfl
  | cons edit later ih =>
      rw [List.forall_mem_cons] at hfits
      have hhead := h.head_lt
      rw [removedSize_cons] at hroom ⊢
      rw [insertedSize_cons]
      have hlater := ih hfits.2 (h.tail (Nat.le_add_right _ _)) (by omega)
      -- the later edits are undone first, and leave the offset behind the text of this one
      have hlt : edit.offset < offset + removedSize later - insertedSize later := by omega
      have hbehind : edit.offset + edit.inserted.utf8ByteSize ≤
          offset + removedSize later - insertedSize later := by omega
      have hadvance : Offset.advance
          (offset + removedSize later - insertedSize later - edit.inserted.utf8ByteSize)
          edit.removed.utf8ByteSize =
            .ok (offset + (edit.removed.utf8ByteSize + removedSize later) -
              (edit.inserted.utf8ByteSize + insertedSize later)) := by
        apply Offset.advance_eq_ok_iff.2
        constructor <;> omega
      simp only [retraceThrough, hlater]
      rw [Edit.retrace_of_behind hfits.1 hlt hbehind, hadvance]
      rfl

/-! ### Texts -/

/-- The two texts differ in size by what the edits insert and remove. -/
theorem TurnsThrough.size (h : TurnsThrough edits before after) :
    before.utf8ByteSize + insertedSize edits = after.utf8ByteSize + removedSize edits := by
  induction edits generalizing after with
  | nil => exact congrArg String.utf8ByteSize h
  | cons edit later ih =>
      obtain ⟨middle, hlater, -, hturns⟩ := h
      have hsizes := ih hlater
      have hsize := hturns.size
      rw [insertedSize_cons, removedSize_cons]
      omega

/-- Ahead of the window both texts have the same bytes. -/
theorem TurnsThrough.take_bytes (h : TurnsThrough edits before after)
    (hahead : AheadOf edits offset) :
    (Text.bytes after).take offset = (Text.bytes before).take offset := by
  induction edits generalizing after with
  | nil => rw [show before = after from h]
  | cons edit later ih =>
      obtain ⟨middle, hlater, -, front, back, rfl, rfl, hfront⟩ := h
      obtain ⟨hfirst, hrest⟩ := List.forall_mem_cons.1 hahead
      have hin : offset ≤ front.utf8ByteSize := hfront ▸ hfirst
      rw [← ih hlater hrest, String.append_assoc, String.append_assoc,
        Text.take_bytes_append hin, Text.take_bytes_append hin]

/-- Behind the window both texts have the same bytes, from an offset and from its answer on. -/
theorem TurnsThrough.drop_bytes (h : TurnsThrough edits before after)
    (hbehind : Behind edits offset) :
    (Text.bytes after).drop offset =
      (Text.bytes before).drop (offset + removedSize edits - insertedSize edits) := by
  induction edits generalizing after offset with
  | nil =>
      rw [show before = after from h]
      rfl
  | cons edit later ih =>
      obtain ⟨middle, hlater, -, front, back, rfl, rfl, hfront⟩ := h
      have hhead := hbehind.head_lt
      -- the bytes are taken back through the first edit first
      obtain ⟨rest, hrest⟩ :=
        Nat.exists_eq_add_of_le (show (front ++ edit.inserted).utf8ByteSize ≤ offset by
          rw [String.utf8ByteSize_append, hfront]
          omega)
      have htail : Behind later ((front ++ edit.removed).utf8ByteSize + rest) := by
        apply hbehind.tail
        rw [hrest, String.utf8ByteSize_append, String.utf8ByteSize_append]
        omega
      have hnext := ih hlater htail
      rw [Text.drop_bytes_append] at hnext
      rw [hrest, Text.drop_bytes_append, hnext, removedSize_cons, insertedSize_cons]
      congr 1
      rw [String.utf8ByteSize_append, hfront] at hrest ⊢
      rw [String.utf8ByteSize_append]
      omega

end Retrace
