import Retrace.Proofs.Edit.Inverse
import Retrace.Proofs.Edit.Replay
import Retrace.Proofs.Edit.Window

/-!
# Edits in their own order and in reverse

The text at an offset moves with the edits in their own order, and the merged part of a log is
undone in reverse.  An edit shifts what is behind it and nothing else.  So if in both orders the
offset stays behind the same edits, the front, and ahead of all others, then both ways are
shifted by what the edits of the front insert, less what they remove
(`PassesBy.carryThrough_reverse`).

At the end of the reverse way comes the edit that made the copy.  It has kept its place all the
time, and the offset has been shifted.  The answer is where the text has gone exactly if the offset
meets this edit on the side on which it was before the shift, or if both sides are the same because
the edit leaves the length of the text (`Edit.retrace_eq_tracked_iff`).
-/

namespace Retrace

variable {edits later : List Edit} {edit creation : Edit} {front : Edit → Bool}
  {offset origin start moved reached tracked replayed : Nat}

/-! ### Ways past the edits -/

/-- Carried over edits one after the other, the offset is behind every edit of the front when it
comes there, and not behind the start of any other edit. -/
def PassesBy (front : Edit → Bool) : List Edit → Nat → Prop
  | [], _ => True
  | edit :: later, offset =>
      (front edit = true ∧ edit.offset < offset ∧
          edit.offset + edit.removed.utf8ByteSize ≤ offset ∧
          PassesBy front later
            (offset - edit.removed.utf8ByteSize + edit.inserted.utf8ByteSize)) ∨
        (front edit = false ∧ offset ≤ edit.offset ∧ PassesBy front later offset)

instance decidablePassesBy (front : Edit → Bool) :
    (edits : List Edit) → (offset : Nat) → Decidable (PassesBy front edits offset)
  | [], _ => isTrue trivial
  | edit :: later, offset =>
      have := decidablePassesBy front later
        (offset - edit.removed.utf8ByteSize + edit.inserted.utf8ByteSize)
      have := decidablePassesBy front later offset
      inferInstanceAs (Decidable (_ ∨ _))

/-- The way goes on from where the first edit carries the offset to. -/
theorem PassesBy.tail (h : PassesBy front (edit :: later) offset)
    (hmoved : edit.carry offset = .ok moved) : PassesBy front later moved := by
  rcases h with ⟨-, hlt, hbehind, hrest⟩ | ⟨-, hle, hrest⟩
  · rcases Edit.carry_cases hmoved with ⟨hahead, -⟩ | ⟨⟨-, hin⟩, -⟩ | ⟨-, -, rfl, -⟩
    · omega
    · omega
    · exact hrest
  · rcases Edit.carry_cases hmoved with ⟨-, rfl⟩ | ⟨⟨hlt, -⟩, -⟩ | ⟨hlt, -⟩
    · exact hrest
    · omega
    · omega

theorem PassesBy.not_covers (h : PassesBy front (edit :: later) offset) :
    ¬ edit.Covers offset := by
  rintro ⟨hlt, hin⟩
  rcases h with ⟨-, -, hbehind, -⟩ | ⟨-, hle, -⟩ <;> omega

theorem PassesBy.neverCovered (h : PassesBy front edits offset) : NeverCovered edits offset := by
  induction edits generalizing offset with
  | nil => exact neverCovered_nil offset
  | cons edit later ih =>
      refine neverCovered_cons_iff.2 ⟨h.not_covers, ?_⟩
      intro moved hmoved
      exact ih (h.tail hmoved)

/-- On its way the offset is shifted by what the edits of the front insert, less what they
remove. -/
theorem PassesBy.carryThrough_add (h : PassesBy front edits offset)
    (hmoved : carryThrough edits offset = .ok moved) :
    moved + removedSize (edits.filter front) = offset + insertedSize (edits.filter front) := by
  induction edits generalizing offset with
  | nil =>
      cases hmoved
      rfl
  | cons edit later ih =>
      obtain ⟨reached, hreached, hlater⟩ := carryThrough_cons_eq_ok hmoved
      have hrest := ih (h.tail hreached) hlater
      rcases h with ⟨hfront, hlt, hbehind, -⟩ | ⟨hfront, hle, -⟩
      · rw [List.filter_cons_of_pos hfront, removedSize_cons, insertedSize_cons]
        rcases Edit.carry_cases hreached with ⟨hahead, -⟩ | ⟨⟨-, hin⟩, -⟩ | ⟨-, -, heq, -⟩ <;> omega
      · rw [List.filter_cons_of_neg (by simp [hfront])]
        rcases Edit.carry_cases hreached with ⟨-, heq⟩ | ⟨⟨hlt, -⟩, -⟩ | ⟨hlt, -⟩ <;> omega

/-- With room for everything that is inserted, the way comes to its end. -/
theorem PassesBy.exists_carryThrough (h : PassesBy front edits offset)
    (hfits : ∀ edit ∈ edits, edit.offset + edit.removed.utf8ByteSize ≤ Offset.limit)
    (hroom : offset + insertedSize edits ≤ Offset.limit) :
    ∃ moved : Nat, carryThrough edits offset = .ok moved := by
  induction edits generalizing offset with
  | nil => exact ⟨offset, rfl⟩
  | cons edit later ih =>
      rw [List.forall_mem_cons] at hfits
      rw [insertedSize_cons] at hroom
      have hstep : ∃ reached : Nat, edit.carry offset = .ok reached ∧
          reached ≤ offset + edit.inserted.utf8ByteSize := by
        rcases h with ⟨-, hlt, hbehind, -⟩ | ⟨-, hle, -⟩
        · refine ⟨offset - edit.removed.utf8ByteSize + edit.inserted.utf8ByteSize, ?_, by omega⟩
          rw [Edit.carry_of_behind hfits.1 hlt hbehind]
          exact Offset.advance_eq_ok_iff.2 ⟨rfl, by omega⟩
        · exact ⟨offset, Edit.carry_of_le hfits.1 hle, Nat.le_add_right _ _⟩
      obtain ⟨reached, hreached, hbound⟩ := hstep
      simp only [carryThrough, hreached]
      exact ih (h.tail hreached) hfits.2 (by omega)

/-- An edit that an offset was carried over removes no text beyond the limit. -/
theorem removed_le_of_carryThrough (h : carryThrough edits offset = .ok moved) (edit : Edit)
    (hmem : edit ∈ edits) : edit.offset + edit.removed.utf8ByteSize ≤ Offset.limit := by
  induction edits generalizing offset with
  | nil => cases hmem
  | cons first later ih =>
      obtain ⟨reached, hreached, hlater⟩ := carryThrough_cons_eq_ok h
      rcases List.mem_cons.1 hmem with rfl | hrest
      · refine Nat.le_of_not_lt fun hbeyond => ?_
        simp only [Edit.carry, Edit.removedSpan, Span.ofLength, if_neg (Nat.not_le.2 hbeyond)]
          at hreached
        cases hreached
      · exact ih hlater hrest

/-- If both ways pass by the same edits of the front, they are shifted alike. -/
theorem PassesBy.carryThrough_reverse (h : PassesBy front edits origin)
    (htracked : carryThrough edits origin = .ok tracked)
    (hback : PassesBy front edits.reverse offset)
    (hroom : offset + insertedSize edits ≤ Offset.limit) :
    ∃ replayed : Nat, carryThrough edits.reverse offset = .ok replayed ∧
      replayed + origin = tracked + offset := by
  have hfits : ∀ edit ∈ edits.reverse,
      edit.offset + edit.removed.utf8ByteSize ≤ Offset.limit :=
    fun edit hmem => removed_le_of_carryThrough htracked edit (List.mem_reverse.1 hmem)
  obtain ⟨replayed, hreplayed⟩ :=
    hback.exists_carryThrough hfits (insertedSize_reverse edits ▸ hroom)
  have hsum := h.carryThrough_add htracked
  have hsum' := hback.carryThrough_add hreplayed
  rw [List.filter_reverse, insertedSize_reverse, removedSize_reverse] at hsum'
  exact ⟨replayed, hreplayed, by omega⟩

/-- In their own order and in reverse, the edits that begin before an offset stay in front of it,
and the others begin behind it or where it is. -/
def KeepsSides (edits : List Edit) (offset : Nat) : Prop :=
  PassesBy (fun edit => edit.offset < offset) edits offset ∧
    PassesBy (fun edit => edit.offset < offset) edits.reverse offset

instance (edits : List Edit) (offset : Nat) : Decidable (KeepsSides edits offset) :=
  inferInstanceAs (Decidable (_ ∧ _))

/-! ### Edits in front of a place that moves with them -/

/-- Every edit ends at or before a place that is carried over the edits, and an offset that is not
before this place stays behind all of them.  It has to be behind the place at once if an edit
inserts exactly there. -/
theorem passesBy_of_ends (hle : start ≤ origin)
    (htracked : carryThrough edits origin = .ok tracked)
    (hmoved : carryThrough edits start = .ok moved)
    (hends : ∀ front edit back, ∀ reached : Nat, edits = front ++ edit :: back →
      carryThrough front start = .ok reached →
        edit.offset + edit.removed.utf8ByteSize ≤ reached ∧
          (edit.offset < reached ∨ start < origin)) :
    PassesBy (fun _ => true) edits origin := by
  induction edits generalizing start origin with
  | nil => trivial
  | cons edit later ih =>
      obtain ⟨next, hnext, hlater⟩ := carryThrough_cons_eq_ok htracked
      obtain ⟨place, hplace, hlater'⟩ := carryThrough_cons_eq_ok hmoved
      obtain ⟨hend, hstrict⟩ := hends [] edit later start rfl rfl
      have hlt : edit.offset < origin := by omega
      have hbehind : edit.offset + edit.removed.utf8ByteSize ≤ origin := Nat.le_trans hend hle
      have hshift : next = origin - edit.removed.utf8ByteSize + edit.inserted.utf8ByteSize := by
        rcases Edit.carry_cases hnext with ⟨hahead, -⟩ | ⟨⟨-, hin⟩, -⟩ | ⟨-, -, heq, -⟩ <;> omega
      refine Or.inl ⟨rfl, hlt, hbehind, hshift ▸ ih ?_ hlater hlater' ?_⟩
      · exact Edit.carry_le_carry hle hplace hnext
      · intro front other back reached heq hreached
        have hfront : carryThrough (edit :: front) start = .ok reached := by
          simp only [carryThrough, hplace]
          exact hreached
        obtain ⟨hend', hstrict'⟩ :=
          hends (edit :: front) other back reached (congrArg (edit :: ·) heq) hfront
        refine ⟨hend', hstrict'.imp_right ?_⟩
        intro hbefore
        rcases Edit.carry_cases hplace with ⟨hahead, hstays⟩ | ⟨⟨-, hin⟩, -⟩ | ⟨-, -, hmoves, -⟩ <;>
          omega

/-! ### The edit that made the copy -/

/-- Two offsets on one side of the text that an edit removes: up to its start, or behind it. -/
def Edit.SameSide (edit : Edit) (offset other : Nat) : Prop :=
  (offset ≤ edit.offset ∧ other ≤ edit.offset) ∨
    (edit.offset < offset ∧ edit.offset + edit.removed.utf8ByteSize ≤ offset ∧
      edit.offset < other ∧ edit.offset + edit.removed.utf8ByteSize ≤ other)

instance (edit : Edit) (offset other : Nat) : Decidable (edit.SameSide offset other) :=
  inferInstanceAs (Decidable (_ ∨ _))

/-- An offset has been shifted by as much as the offset that it comes from.  Undoing the edit that
made the copy takes the one to the other exactly if the shift has not taken it past that edit, or
if passing it makes no difference. -/
theorem Edit.retrace_eq_tracked_iff
    (hfits : creation.offset + creation.inserted.utf8ByteSize ≤ Offset.limit)
    (hnot : ¬ creation.inverse.Covers offset)
    (horigin : creation.retrace offset = .ok (some origin))
    (hlimit : tracked ≤ Offset.limit) (hsum : replayed + origin = tracked + offset) :
    creation.retrace replayed = .ok (some tracked) ↔
      creation.inverse.SameSide offset replayed ∨
        creation.inserted.utf8ByteSize = creation.removed.utf8ByteSize ∧
          ¬ creation.inverse.Covers replayed := by
  have hcases := retrace_cases horigin
  simp only [collapses_iff, Covers, SameSide, inverse] at hcases hnot ⊢
  constructor
  · intro h
    have hcases' := retrace_cases h
    simp only [collapses_iff] at hcases'
    omega
  · intro h
    rcases Nat.lt_or_ge creation.offset replayed with hlt | hge
    · have hbehind : creation.offset + creation.inserted.utf8ByteSize ≤ replayed := by omega
      have hadvance : Offset.advance (replayed - creation.inserted.utf8ByteSize)
          creation.removed.utf8ByteSize = .ok tracked :=
        Offset.advance_eq_ok_iff.2 ⟨by omega, by omega⟩
      rw [retrace_of_behind hfits hlt hbehind, hadvance]
      rfl
    · have hstays : replayed = tracked := by omega
      rw [retrace_of_le hfits hge, hstays]

/-- The whole log, if in both orders the offset stays behind the same edits: the merged edits shift
it by as much as the text that it comes from, and then only the edit that made the copy can lead
it astray. -/
theorem PassesBy.retraceThrough_eq_tracked_iff (h : PassesBy front edits origin)
    (hback : PassesBy front edits.reverse offset)
    (hfits : creation.offset + creation.inserted.utf8ByteSize ≤ Offset.limit)
    (hnot : ¬ creation.inverse.Covers offset)
    (horigin : creation.retrace offset = .ok (some origin))
    (htracked : carryThrough edits origin = .ok tracked) (hlimit : tracked ≤ Offset.limit)
    (hroom : offset + insertedSize edits ≤ Offset.limit) :
    ∃ replayed : Nat, carryThrough edits.reverse offset = .ok replayed ∧
      replayed + origin = tracked + offset ∧
      (retraceThrough (creation :: edits.map Edit.inverse) offset = .ok (some tracked) ↔
        creation.inverse.SameSide offset replayed ∨
          creation.inserted.utf8ByteSize = creation.removed.utf8ByteSize ∧
            ¬ creation.inverse.Covers replayed) := by
  obtain ⟨replayed, hreplayed, hsum⟩ := h.carryThrough_reverse htracked hback hroom
  refine ⟨replayed, hreplayed, hsum, ?_⟩
  rw [retraceThrough_creation_cons hback.neverCovered, hreplayed]
  exact Edit.retrace_eq_tracked_iff hfits hnot horigin hlimit hsum

end Retrace
