import Mathlib.Control.Monad.Basic
import Retrace.Edit.Marks
import Retrace.Proofs.Edit.Turn
import Retrace.Proofs.Table.Map

/-!
# Named offsets and the inverse of an edit

Named offsets are carried over an edit one after the other, and an offset that cannot be carried
ends this in the middle.  So what comes out is in two parts (`sweepEntries_cases`): a front that was
carried, and a back that starts with the offset at which it ended and is as it was.

Each offset of the front is where the inverse of the edit takes it back from, or the start of the
edit if there is no such place (`Edit.settle`).  Both are worked out by the same comparisons and
break off at the same offsets (`Edit.shift_eq`).
-/

namespace Retrace

variable {edit : Edit} {marks : Marks} {offset : Nat}

namespace Edit

/-- Where the inverse of an edit takes an offset back from.  A place that has no counterpart goes to
the start of the edit, and an offset at which the calculation breaks off stays. -/
def settle (edit : Edit) (offset : Nat) : Offset :=
  match edit.inverse.retrace offset with
  | .error _ => offset
  | .ok none => edit.offset
  | .ok (some reached) => reached

/-- To carry an offset that a name is kept for is to settle it, and it fails where settling breaks
off. -/
theorem shift_eq (edit : Edit) (offset : Nat) :
    edit.shift offset = ((edit.inverse.retrace offset).map fun _ => (), edit.settle offset) := by
  rw [shift, carry_eq_retrace_inverse, settle]
  rcases edit.inverse.retrace offset with fault | (_ | reached) <;> rfl

/-- Where the calculation does not break off, an offset is carried to where it settles. -/
theorem carry_eq_settle {answer : Option Offset} (h : edit.inverse.retrace offset = .ok answer) :
    edit.carry offset = .ok (edit.settle offset) := by
  rw [carry_eq_retrace_inverse, settle, h]
  rcases answer with _ | reached <;> rfl

theorem removedSpan_of_beyond (h : Offset.limit < edit.offset + edit.removed.utf8ByteSize) :
    edit.removedSpan = .error .overflow :=
  if_neg (Nat.not_le.2 h)

/-- If the removed text ends out of range, nothing can be taken back through the inverse. -/
theorem retrace_inverse_of_beyond
    (h : Offset.limit < edit.offset + edit.removed.utf8ByteSize) (offset : Nat) :
    edit.inverse.retrace offset = .error .overflow := by
  rw [retrace, insertedSpan_inverse, removedSpan_of_beyond h]

theorem shift_fst_eq_ok_iff :
    (edit.shift offset).1 = .ok () ↔ ∃ answer, edit.inverse.retrace offset = .ok answer := by
  rw [shift_eq]
  rcases edit.inverse.retrace offset with fault | answer
  · simp [Except.map]
  · simp [Except.map]

theorem shift_fst_eq_error_iff {fault : Fault} :
    (edit.shift offset).1 = .error fault ↔ edit.inverse.retrace offset = .error fault := by
  rw [shift_eq]
  rcases edit.inverse.retrace offset with other | answer
  · simp [Except.map]
  · simp [Except.map]

end Edit

namespace Marks

/-- If the removed text ends out of range, no named offset is carried. -/
theorem carry_of_beyond (marks : Marks)
    (hbeyond : Offset.limit < edit.offset + edit.removed.utf8ByteSize) :
    Marks.carry marks edit = (.error .overflow, marks) := by
  rw [Marks.carry, Edit.removedSpan_of_beyond hbeyond]

/-- If it ends in range, the named offsets are carried one after the other. -/
theorem carry_eq_sweep (marks : Marks)
    (hfits : edit.offset + edit.removed.utf8ByteSize ≤ Offset.limit) :
    Marks.carry marks edit = marks.sweep edit.shift := by
  rw [Marks.carry, Edit.removedSpan_eq_ok hfits]

/-- Named offsets are carried in their order, up to the first at which the inverse breaks off. -/
theorem exists_carried (marks : Marks)
    (hfits : edit.offset + edit.removed.utf8ByteSize ≤ Offset.limit) :
    ∃ carried kept, marks.entries = carried ++ kept ∧
      (∀ entry ∈ carried, ∃ answer, edit.inverse.retrace entry.2 = .ok answer) ∧
      (Marks.carry marks edit).2.entries =
        (carried.map fun entry => (entry.1, edit.settle entry.2)) ++ kept ∧
      ((kept = [] ∧ (Marks.carry marks edit).1 = .ok ()) ∨
        ∃ name offset rest fault, kept = (name, offset) :: rest ∧
          edit.inverse.retrace offset = .error fault ∧
          (Marks.carry marks edit).1 = .error fault) := by
  have hshift : ∀ value, (edit.shift value).2 = edit.settle value := fun value => by
    rw [Edit.shift_eq]
  simp only [carry_eq_sweep marks hfits, Table.sweep]
  rcases sweepEntries_cases edit.shift marks.entries with
    ⟨hall, hswept⟩ | ⟨front, name, offset, back, fault, hentries, hall, hfails, hswept⟩
  · refine ⟨marks.entries, [], (List.append_nil _).symm, ?_, ?_, Or.inl ⟨rfl, ?_⟩⟩
    · exact fun entry hentry => Edit.shift_fst_eq_ok_iff.1 (hall entry hentry)
    · simp only [hswept, hshift, List.append_nil]
    · rw [hswept]
  · have hbreaks := Edit.shift_fst_eq_error_iff.1 hfails
    have hstays : edit.settle offset = offset := by rw [Edit.settle, hbreaks]
    refine ⟨front, (name, offset) :: back, hentries, ?_, ?_,
      Or.inr ⟨name, offset, back, fault, rfl, hbreaks, ?_⟩⟩
    · exact fun entry hentry => Edit.shift_fst_eq_ok_iff.1 (hall entry hentry)
    · simp only [hswept, hshift, hstays]
    · rw [hswept]

/-- If all named offsets are carried, each of them settles. -/
theorem carry_eq_ok (h : (Marks.carry marks edit).1 = .ok ()) :
    (Marks.carry marks edit).2 = (marks.map fun _ => edit.settle) ∧
      ∀ name offset, marks.find? name = some offset →
        edit.carry offset = .ok (edit.settle offset) := by
  rcases Nat.lt_or_ge Offset.limit (edit.offset + edit.removed.utf8ByteSize) with hbeyond | hfits
  · rw [carry_of_beyond marks hbeyond] at h
    cases h
  · obtain ⟨carried, kept, hentries, hanswers, hcarried, ⟨rfl, -⟩ | ⟨_, _, _, _, -, -, hfails⟩⟩ :=
      exists_carried marks hfits
    · rw [List.append_nil] at hentries hcarried
      constructor
      · exact Table.ext (by rw [hcarried, ← hentries]; rfl)
      · intro name offset hfind
        have hmem := Table.find?_eq_some_iff.1 hfind
        rw [hentries] at hmem
        obtain ⟨answer, hanswer⟩ := hanswers _ hmem
        exact Edit.carry_eq_settle hanswer
    · rw [h] at hfails
      cases hfails

/-- **Named offsets follow the inverse of an edit.**  If the removed text ends out of range, no
named offset moves, and the inverse takes no offset back.  Otherwise the named offsets move in their
order.  Each goes to where the inverse takes it back, or to the start of the edit if there is no
such place.  It ends exactly at the first offset at which the inverse breaks off, and for the same
reason, and this offset and all behind it stay.  The names and their order are what they were in any
case.  If all offsets were carried, then any two of them are in the order in which they were. -/
theorem carry_settles (marks : Marks) (edit : Edit) :
    (Offset.limit < edit.offset + edit.removed.utf8ByteSize →
      Marks.carry marks edit = (.error .overflow, marks) ∧
        ∀ offset, edit.inverse.retrace offset = .error .overflow) ∧
    (edit.offset + edit.removed.utf8ByteSize ≤ Offset.limit →
      ∃ carried kept, marks.entries = carried ++ kept ∧
        (∀ entry ∈ carried, ∃ answer, edit.inverse.retrace entry.2 = .ok answer) ∧
        (Marks.carry marks edit).2.entries =
          (carried.map fun entry => (entry.1, edit.settle entry.2)) ++ kept ∧
        ((kept = [] ∧ (Marks.carry marks edit).1 = .ok ()) ∨
          ∃ name offset rest fault, kept = (name, offset) :: rest ∧
            edit.inverse.retrace offset = .error fault ∧
            (Marks.carry marks edit).1 = .error fault)) ∧
    (Marks.carry marks edit).2.keys = marks.keys ∧
    ((Marks.carry marks edit).1 = .ok () →
      ∀ name other, ∀ offset otherOffset : Nat, marks.find? name = some offset →
        marks.find? other = some otherOffset → offset ≤ otherOffset →
          ∃ moved otherMoved : Nat, (Marks.carry marks edit).2.find? name = some moved ∧
            (Marks.carry marks edit).2.find? other = some otherMoved ∧ moved ≤ otherMoved) := by
  refine ⟨?_, exists_carried marks, Marks.keys_carry marks edit, ?_⟩
  · intro hbeyond
    exact ⟨carry_of_beyond marks hbeyond, Edit.retrace_inverse_of_beyond hbeyond⟩
  · intro hok name other offset otherOffset hfind hfind' hle
    obtain ⟨hmap, hcarry⟩ := carry_eq_ok hok
    refine ⟨edit.settle offset, edit.settle otherOffset, ?_, ?_, ?_⟩
    · rw [hmap, Table.find?_map, hfind]
      rfl
    · rw [hmap, Table.find?_map, hfind']
      rfl
    · exact Edit.carry_le_carry hle (hcarry name offset hfind) (hcarry other otherOffset hfind')

/-- Text that grows by two bytes, and a third name at the largest offset.  The first offset was
inside the removed text and goes to its start, the second moves on, and the third cannot, so that
the fourth stays as well.  Without the third name all are carried and the order is kept.  A removed
text that ends out of range moves nothing. -/
theorem carry_settles_up_to_limit :
    let edit : Edit := ⟨1, "ab", "wxyz"⟩
    let beyond : Edit := ⟨Offset.limit, "a", ""⟩
    let marks : Marks := .ofList [(⟨"a"⟩, 2), (⟨"b"⟩, 3), (⟨"c"⟩, Offset.limit), (⟨"d"⟩, 4)]
    let others : Marks := .ofList [(⟨"a"⟩, 2), (⟨"b"⟩, 3), (⟨"d"⟩, 4)]
    edit.offset + edit.removed.utf8ByteSize ≤ Offset.limit ∧
      Offset.limit < beyond.offset + beyond.removed.utf8ByteSize ∧
      (∃ carried kept, marks.entries = carried ++ kept ∧ kept ≠ [] ∧
        (Marks.carry marks edit).2.entries =
          (carried.map fun entry => (entry.1, edit.settle entry.2)) ++ kept) ∧
      (Marks.carry marks edit).2.entries =
        [(⟨"a"⟩, 1), (⟨"b"⟩, 5), (⟨"c"⟩, Offset.limit), (⟨"d"⟩, 4)] ∧
      (Marks.carry others edit).1 = .ok () ∧
      (∃ moved otherMoved : Nat, (Marks.carry others edit).2.find? ⟨"a"⟩ = some moved ∧
        (Marks.carry others edit).2.find? ⟨"d"⟩ = some otherMoved ∧ moved ≤ otherMoved) ∧
      Marks.carry marks beyond = (.error .overflow, marks) := by
  intro edit beyond marks others
  have hfits : edit.offset + edit.removed.utf8ByteSize ≤ Offset.limit := by decide
  have hbeyond : Offset.limit < beyond.offset + beyond.removed.utf8ByteSize := by decide
  have hfails : (Marks.carry marks edit).1 = .error .overflow := by decide
  have hok : (Marks.carry others edit).1 = .ok () := by decide
  refine ⟨hfits, hbeyond, ?_, by decide, hok, ?_, ((carry_settles marks beyond).1 hbeyond).1⟩
  · obtain ⟨carried, kept, hentries, -, hcarried, ⟨-, hall⟩ | ⟨_, _, _, _, rfl, -, -⟩⟩ :=
      (carry_settles marks edit).2.1 hfits
    · rw [hfails] at hall
      cases hall
    · exact ⟨carried, _, hentries, List.cons_ne_nil _ _, hcarried⟩
  · exact (carry_settles others edit).2.2.2 hok ⟨"a"⟩ ⟨"d"⟩ 2 4 (by decide) (by decide) (by decide)

end Marks

end Retrace
