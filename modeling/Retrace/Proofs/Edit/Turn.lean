import Retrace.Edit.Basic
import Retrace.Proofs.Text.Cut

/-!
# What an edit does to a text and to its offsets

`Edit.Turns` is an edit as a relation between the text before it and the text after it.
The relation is symmetric under inverses, so undoing an edit needs no second definition.

Offsets go through an edit in both directions, and the two directions are one map:
carrying an offset forward is retracing it through the inverse, with the start of the
edit for a place that has no counterpart (`carry_eq_retrace_inverse`).  An offset inside
the text stays inside, and a boundary stays a boundary.

Logs are gone through from the end, and so is the list of edits in `TurnsThrough`.
-/

namespace Retrace

/-- The edit turns one text into another: both have a common front, which ends at the
offset of the edit, and a common back. -/
def Edit.Turns (edit : Edit) (before after : String) : Prop :=
  ∃ front back, before = front ++ edit.removed ++ back ∧
    after = front ++ edit.inserted ++ back ∧ front.utf8ByteSize = edit.offset

/-- An offset strictly inside the text that an edit removes. -/
def Edit.Covers (edit : Edit) (offset : Nat) : Prop :=
  edit.offset < offset ∧ offset < edit.offset + edit.removed.utf8ByteSize

instance (edit : Edit) (offset : Nat) : Decidable (edit.Covers offset) :=
  inferInstanceAs (Decidable (_ ∧ _))

namespace Edit

variable {edit : Edit} {before after : String} {offset moved : Nat}

/-! ### Texts -/

theorem Turns.inverse (h : edit.Turns before after) : edit.inverse.Turns after before := by
  obtain ⟨front, back, hbefore, hafter, hfront⟩ := h
  exact ⟨front, back, hafter, hbefore, hfront⟩

theorem Turns.size (h : edit.Turns before after) :
    before.utf8ByteSize + edit.inserted.utf8ByteSize =
      after.utf8ByteSize + edit.removed.utf8ByteSize := by
  obtain ⟨front, back, rfl, rfl, -⟩ := h
  simp only [String.utf8ByteSize_append]
  omega

theorem Turns.removed_le (h : edit.Turns before after) :
    edit.offset + edit.removed.utf8ByteSize ≤ before.utf8ByteSize := by
  obtain ⟨front, back, rfl, -, hfront⟩ := h
  simp only [String.utf8ByteSize_append]
  omega

theorem Turns.inserted_le (h : edit.Turns before after) :
    edit.offset + edit.inserted.utf8ByteSize ≤ after.utf8ByteSize :=
  h.inverse.removed_le

/-! ### Offsets, forward -/

theorem removedSpan_eq_ok (hfits : edit.offset + edit.removed.utf8ByteSize ≤ Offset.limit) :
    edit.removedSpan = .ok ⟨edit.offset, edit.offset + edit.removed.utf8ByteSize,
      Nat.le_add_right _ _⟩ := by
  simp only [removedSpan, Span.ofLength, if_pos hfits]

theorem carry_of_le (hfits : edit.offset + edit.removed.utf8ByteSize ≤ Offset.limit)
    (hle : offset ≤ edit.offset) : edit.carry offset = .ok offset := by
  simp only [carry, removedSpan_eq_ok hfits, if_pos hle]

theorem carry_of_covers (hfits : edit.offset + edit.removed.utf8ByteSize ≤ Offset.limit)
    (hcovers : edit.Covers offset) : edit.carry offset = .ok edit.offset := by
  have hnot : ¬ offset ≤ edit.offset := Nat.not_le.2 hcovers.1
  simp only [carry, removedSpan_eq_ok hfits, if_neg hnot, if_pos hcovers.2]

theorem carry_of_behind (hfits : edit.offset + edit.removed.utf8ByteSize ≤ Offset.limit)
    (hlt : edit.offset < offset) (hle : edit.offset + edit.removed.utf8ByteSize ≤ offset) :
    edit.carry offset =
      Offset.advance (offset - edit.removed.utf8ByteSize) edit.inserted.utf8ByteSize := by
  have hnot : ¬ offset ≤ edit.offset := Nat.not_le.2 hlt
  have hnot' : ¬ offset < edit.offset + edit.removed.utf8ByteSize := Nat.not_lt.2 hle
  simp only [carry, removedSpan_eq_ok hfits, if_neg hnot, if_neg hnot',
    Span.length, Nat.add_sub_cancel_left]

/-- The three places an offset can be carried from. -/
theorem carry_cases (h : edit.carry offset = .ok moved) :
    (offset ≤ edit.offset ∧ moved = offset) ∨ (edit.Covers offset ∧ moved = edit.offset) ∨
      (edit.offset < offset ∧ edit.offset + edit.removed.utf8ByteSize ≤ offset ∧
        moved = offset - edit.removed.utf8ByteSize + edit.inserted.utf8ByteSize ∧
        moved ≤ Offset.limit) := by
  unfold carry at h
  rcases hspan : edit.removedSpan with fault | span
  · simp [hspan] at h
  · obtain ⟨hstart, hstop, -⟩ := Span.ofLength_eq_ok_iff.1 hspan
    simp only [hspan, hstart, hstop, Span.length, Nat.add_sub_cancel_left] at h
    split at h
    · next hle =>
        simp only [Except.ok.injEq] at h
        exact Or.inl ⟨hle, h.symm⟩
    · next hlt =>
        split at h
        · next hin =>
            simp only [Except.ok.injEq] at h
            exact Or.inr (Or.inl ⟨⟨Nat.not_le.1 hlt, hin⟩, h.symm⟩)
        · next hbehind =>
            obtain ⟨hmoved, hroom⟩ := Offset.advance_eq_ok_iff.1 h
            exact Or.inr (Or.inr ⟨Nat.not_le.1 hlt, Nat.not_lt.1 hbehind, hmoved, hmoved ▸ hroom⟩)

/-- Carrying keeps the order of offsets. -/
theorem carry_le_carry {other otherMoved : Nat} (hle : offset ≤ other)
    (hmoved : edit.carry offset = .ok moved) (hother : edit.carry other = .ok otherMoved) :
    moved ≤ otherMoved := by
  rcases carry_cases hmoved with ⟨h1, h2⟩ | ⟨⟨h1, h2⟩, h3⟩ | ⟨h1, h2, h3, -⟩ <;>
    rcases carry_cases hother with ⟨h4, h5⟩ | ⟨⟨h4, h5⟩, h6⟩ | ⟨h4, h5, h6, -⟩ <;>
    omega

/-- Carrying an offset is retracing it through the inverse.  A place without counterpart goes
to the start of the edit. -/
theorem carry_eq_retrace_inverse (edit : Edit) (offset : Nat) :
    edit.carry offset =
      (edit.inverse.retrace offset).map fun reached => reached.getD edit.offset := by
  unfold carry retrace
  rw [insertedSpan_inverse]
  rcases hspan : edit.removedSpan with fault | span
  · rfl
  · have hstart : span.start = edit.offset := (Span.ofLength_eq_ok_iff.1 hspan).1
    simp only
    split
    · rfl
    · split
      · simp only [hstart, Except.map]
        split <;> rfl
      · simp only [inverse]
        rcases Offset.advance (offset - span.length) edit.inserted.utf8ByteSize with fault | _
        · rfl
        · rfl

/-- Outside the removed text, retracing through the inverse always has an answer. -/
theorem retrace_inverse_of_not_covers (hnot : ¬ edit.Covers offset) :
    edit.inverse.retrace offset = (edit.carry offset).map some := by
  unfold carry retrace
  rw [insertedSpan_inverse]
  rcases hspan : edit.removedSpan with fault | span
  · rfl
  · obtain ⟨hstart, hstop, -⟩ := Span.ofLength_eq_ok_iff.1 hspan
    simp only
    split
    · rfl
    · next hlt =>
        split
        · next hinside =>
            exact absurd ⟨by omega, by omega⟩ hnot
        · simp only [inverse]
          rcases Offset.advance (offset - span.length) edit.inserted.utf8ByteSize with fault | _
          · rfl
          · rfl

/-! ### Offsets, back -/

/-- Outside the inserted text, an offset is taken back as the inverse carries it forward. -/
theorem retrace_of_not_covers (hnot : ¬ edit.inverse.Covers offset) :
    edit.retrace offset = (edit.inverse.carry offset).map some :=
  retrace_inverse_of_not_covers hnot

theorem retrace_of_le (hfits : edit.offset + edit.inserted.utf8ByteSize ≤ Offset.limit)
    (hle : offset ≤ edit.offset) : edit.retrace offset = .ok (some offset) := by
  have hnot : ¬ edit.inverse.Covers offset := fun hcovers => Nat.not_lt.2 hle hcovers.1
  have hcarry : edit.inverse.carry offset = .ok offset := carry_of_le hfits hle
  rw [retrace_of_not_covers hnot, hcarry]
  rfl

/-- Strictly inside the inserted text there is an answer only if nothing was removed. -/
theorem retrace_of_covers (hfits : edit.offset + edit.inserted.utf8ByteSize ≤ Offset.limit)
    (hcovers : edit.inverse.Covers offset) :
    edit.retrace offset = .ok (if edit.removed = "" then some edit.offset else none) := by
  have hspan : edit.insertedSpan = .ok ⟨edit.offset,
      edit.offset + edit.inserted.utf8ByteSize, Nat.le_add_right _ _⟩ := by
    rw [← removedSpan_inverse]
    exact removedSpan_eq_ok hfits
  have hnot : ¬ offset ≤ edit.offset := Nat.not_le.2 hcovers.1
  have hin : offset < edit.offset + edit.inserted.utf8ByteSize := hcovers.2
  simp only [retrace, hspan, if_neg hnot, if_pos hin, isInsertion, decide_eq_true_eq]

theorem retrace_of_behind (hfits : edit.offset + edit.inserted.utf8ByteSize ≤ Offset.limit)
    (hlt : edit.offset < offset) (hle : edit.offset + edit.inserted.utf8ByteSize ≤ offset) :
    edit.retrace offset = (Offset.advance (offset - edit.inserted.utf8ByteSize)
      edit.removed.utf8ByteSize).map some := by
  have hnot : ¬ edit.inverse.Covers offset := fun hcovers => Nat.not_lt.2 hle hcovers.2
  have hcarry : edit.inverse.carry offset =
      Offset.advance (offset - edit.inserted.utf8ByteSize) edit.removed.utf8ByteSize :=
    carry_of_behind hfits hlt hle
  rw [retrace_of_not_covers hnot, hcarry]

/-- With room for what the edit removes, there is a result, and it is moved on by no more than
that. -/
theorem retrace_of_room (edit : Edit)
    (hfits : edit.offset + edit.inserted.utf8ByteSize ≤ Offset.limit)
    (hroom : offset + edit.removed.utf8ByteSize ≤ Offset.limit) :
    ∃ answer, edit.retrace offset = .ok answer ∧
      ∀ reached : Nat, answer = some reached → reached ≤ offset + edit.removed.utf8ByteSize := by
  rcases Nat.lt_or_ge edit.offset offset with hlt | hge
  · rcases Nat.lt_or_ge offset (edit.offset + edit.inserted.utf8ByteSize) with hin | hbehind
    · refine ⟨_, retrace_of_covers hfits ⟨hlt, hin⟩, ?_⟩
      intro reached hreached
      split at hreached
      · cases hreached
        omega
      · cases hreached
    · have hadvance : Offset.advance (offset - edit.inserted.utf8ByteSize)
          edit.removed.utf8ByteSize =
            .ok (offset - edit.inserted.utf8ByteSize + edit.removed.utf8ByteSize) :=
        Offset.advance_eq_ok_iff.2 ⟨rfl, by omega⟩
      refine ⟨some (offset - edit.inserted.utf8ByteSize + edit.removed.utf8ByteSize), ?_, ?_⟩
      · rw [retrace_of_behind hfits hlt hbehind, hadvance]
        rfl
      · rintro reached ⟨⟩
        omega
  · refine ⟨some offset, retrace_of_le hfits hge, ?_⟩
    rintro reached ⟨⟩
    exact Nat.le_add_right _ _

/-- Texts agree up to the start of an edit, and offsets there stay. -/
theorem Turns.retrace_front (h : edit.Turns before after)
    (hafter : after.utf8ByteSize ≤ Offset.limit) (hle : offset ≤ edit.offset) :
    edit.retrace offset = .ok (some offset) ∧
      (Text.bytes after).take offset = (Text.bytes before).take offset := by
  refine ⟨retrace_of_le (Nat.le_trans h.inserted_le hafter) hle, ?_⟩
  obtain ⟨front, back, rfl, rfl, hfront⟩ := h
  have hin : offset ≤ front.utf8ByteSize := hfront ▸ hle
  rw [String.append_assoc, String.append_assoc, Text.take_bytes_append hin,
    Text.take_bytes_append hin]

/-- Inside the new text, an offset behind an edit is moved by the difference of the lengths. -/
theorem Turns.retrace_behind (h : edit.Turns before after)
    (hbefore : before.utf8ByteSize ≤ Offset.limit) (hafter : after.utf8ByteSize ≤ Offset.limit)
    (hbehind : edit.offset + edit.inserted.utf8ByteSize < offset)
    (hoffset : offset ≤ after.utf8ByteSize) :
    edit.retrace offset =
      .ok (some (offset - edit.inserted.utf8ByteSize + edit.removed.utf8ByteSize)) := by
  have hsize := h.size
  have hadvance : Offset.advance (offset - edit.inserted.utf8ByteSize)
      edit.removed.utf8ByteSize =
        .ok (offset - edit.inserted.utf8ByteSize + edit.removed.utf8ByteSize) :=
    Offset.advance_eq_ok_iff.2 ⟨rfl, by omega⟩
  have hlt : edit.offset < offset := Nat.lt_of_le_of_lt (Nat.le_add_right _ _) hbehind
  rw [retrace_of_behind (Nat.le_trans h.inserted_le hafter) hlt (Nat.le_of_lt hbehind), hadvance]
  rfl

/-- Texts agree behind an edit, and an offset there is taken back to the same rest of the
text. -/
theorem Turns.retrace_back (h : edit.Turns before after)
    (hbefore : before.utf8ByteSize ≤ Offset.limit) (hafter : after.utf8ByteSize ≤ Offset.limit)
    (hlt : edit.offset < offset)
    (hbehind : edit.offset + edit.inserted.utf8ByteSize ≤ offset)
    (hoffset : offset ≤ after.utf8ByteSize) :
    ∃ reached : Nat, reached ≤ before.utf8ByteSize ∧ edit.retrace offset = .ok (some reached) ∧
      (Text.bytes after).drop offset = (Text.bytes before).drop reached := by
  have hsize := h.size
  have hfits := Nat.le_trans h.inserted_le hafter
  obtain ⟨front, back, rfl, rfl, hfront⟩ := h
  obtain ⟨rest, rfl⟩ := Nat.exists_eq_add_of_le hbehind
  refine ⟨edit.offset + edit.removed.utf8ByteSize + rest, by omega, ?_, ?_⟩
  · have hadvance : Offset.advance (edit.offset + edit.inserted.utf8ByteSize + rest -
        edit.inserted.utf8ByteSize) edit.removed.utf8ByteSize =
          .ok (edit.offset + edit.removed.utf8ByteSize + rest) :=
      Offset.advance_eq_ok_iff.2 ⟨by omega, by omega⟩
    rw [retrace_of_behind hfits hlt hbehind, hadvance]
    rfl
  · have hinserted : (front ++ edit.inserted).utf8ByteSize =
        edit.offset + edit.inserted.utf8ByteSize := by
      rw [String.utf8ByteSize_append, hfront]
    have hremoved : (front ++ edit.removed).utf8ByteSize =
        edit.offset + edit.removed.utf8ByteSize := by
      rw [String.utf8ByteSize_append, hfront]
    rw [← hinserted, ← hremoved, Text.drop_bytes_append, Text.drop_bytes_append]

/-! ### Offsets of a text that is edited -/

/-- An offset inside the text is carried to an offset inside the new text. -/
theorem Turns.carry_eq_ok (h : edit.Turns before after)
    (hbefore : before.utf8ByteSize ≤ Offset.limit) (hafter : after.utf8ByteSize ≤ Offset.limit)
    (hle : offset ≤ before.utf8ByteSize) :
    ∃ moved : Nat, edit.carry offset = .ok moved ∧ moved ≤ after.utf8ByteSize := by
  have hsize := h.size
  have hremoved := h.removed_le
  have hinserted := h.inserted_le
  have hfits : edit.offset + edit.removed.utf8ByteSize ≤ Offset.limit := by omega
  rcases Nat.lt_or_ge edit.offset offset with hlt | hge
  · rcases Nat.lt_or_ge offset (edit.offset + edit.removed.utf8ByteSize) with hin | hbehind
    · exact ⟨edit.offset, carry_of_covers hfits ⟨hlt, hin⟩, by omega⟩
    · refine ⟨offset - edit.removed.utf8ByteSize + edit.inserted.utf8ByteSize, ?_, by omega⟩
      rw [carry_of_behind hfits hlt hbehind]
      exact Offset.advance_eq_ok_iff.2 ⟨rfl, by omega⟩
  · exact ⟨offset, carry_of_le hfits hge, by omega⟩

/-- Outside the inserted text, an offset inside the new text is taken back into the text. -/
theorem Turns.retrace_eq_ok (h : edit.Turns before after)
    (hbefore : before.utf8ByteSize ≤ Offset.limit) (hafter : after.utf8ByteSize ≤ Offset.limit)
    (hle : offset ≤ after.utf8ByteSize) (hnot : ¬ edit.inverse.Covers offset) :
    ∃ reached : Nat, edit.retrace offset = .ok (some reached) ∧
      reached ≤ before.utf8ByteSize := by
  obtain ⟨reached, hcarry, hin⟩ := h.inverse.carry_eq_ok hafter hbefore hle
  refine ⟨reached, ?_, hin⟩
  rw [retrace_of_not_covers hnot, hcarry]
  rfl

/-- A boundary of the text is carried to a boundary of the new text. -/
theorem Turns.isBoundary_carry (h : edit.Turns before after)
    (hbefore : before.utf8ByteSize ≤ Offset.limit)
    (hoffset : Text.isBoundary before offset = true) (hmoved : edit.carry offset = .ok moved) :
    Text.isBoundary after moved = true := by
  have hfits : edit.offset + edit.removed.utf8ByteSize ≤ Offset.limit :=
    Nat.le_trans h.removed_le hbefore
  have hle := Text.le_size_of_isBoundary hoffset
  obtain ⟨front, back, rfl, rfl, hfront⟩ := h
  rcases Nat.lt_or_ge edit.offset offset with hlt | hge
  · rcases Nat.lt_or_ge offset (edit.offset + edit.removed.utf8ByteSize) with hin | hbehind
    · -- the start of the edit is where the common front ends
      rw [carry_of_covers hfits ⟨hlt, hin⟩, Except.ok.injEq] at hmoved
      subst hmoved
      exact Text.isBoundary_iff.2 ⟨front, edit.inserted ++ back, String.append_assoc, hfront⟩
    · rw [carry_of_behind hfits hlt hbehind] at hmoved
      obtain ⟨hmoved, -⟩ := Offset.advance_eq_ok_iff.1 hmoved
      have hold : offset = (front ++ edit.removed).utf8ByteSize +
          (offset - (edit.offset + edit.removed.utf8ByteSize)) := by
        rw [String.utf8ByteSize_append]
        omega
      have hnew : moved = (front ++ edit.inserted).utf8ByteSize +
          (offset - (edit.offset + edit.removed.utf8ByteSize)) := by
        rw [String.utf8ByteSize_append]
        omega
      rw [hold, Text.isBoundary_append_add_iff] at hoffset
      rw [hnew, Text.isBoundary_append_add_iff]
      exact hoffset
  · rw [carry_of_le hfits hge, Except.ok.injEq] at hmoved
    subst hmoved
    rw [String.append_assoc, Text.isBoundary_append_iff (by omega)] at hoffset ⊢
    exact hoffset

end Edit

/-! ### Lists of edits -/

/-- Making edits in turn, the last of the list first, turns one text into another, and all of
them fit into the range of offsets. -/
def TurnsThrough : List Edit → String → String → Prop
  | [], before, after => before = after
  | edit :: later, before, after =>
      ∃ middle, TurnsThrough later before middle ∧
        edit.offset + edit.removed.utf8ByteSize ≤ Offset.limit ∧ edit.Turns middle after

/-- The way through two lists of edits leads through a text between them. -/
theorem turnsThrough_append {front back : List Edit} {before after : String} :
    TurnsThrough (front ++ back) before after ↔
      ∃ middle, TurnsThrough back before middle ∧ TurnsThrough front middle after := by
  induction front generalizing after with
  | nil =>
      constructor
      · intro h
        exact ⟨after, h, rfl⟩
      · rintro ⟨middle, h, rfl⟩
        exact h
  | cons edit rest ih =>
      constructor
      · rintro ⟨last, hrest, hfits, hturns⟩
        obtain ⟨middle, hback, hfront⟩ := ih.1 hrest
        exact ⟨middle, hback, last, hfront, hfits, hturns⟩
      · rintro ⟨middle, hback, last, hfront, hfits, hturns⟩
        exact ⟨last, ih.2 ⟨middle, hback, hfront⟩, hfits, hturns⟩

/-- An edit at the end of the list is made first. -/
theorem TurnsThrough.concat {edits : List Edit} {edit : Edit} {before middle after : String}
    (h : TurnsThrough edits middle after)
    (hfits : edit.offset + edit.removed.utf8ByteSize ≤ Offset.limit)
    (hturns : edit.Turns before middle) : TurnsThrough (edits ++ [edit]) before after :=
  turnsThrough_append.2 ⟨middle, ⟨before, rfl, hfits, hturns⟩, h⟩

end Retrace
