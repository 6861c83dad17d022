import Retrace.Proofs.Edit.WayBack

/-!
# The inverse of a log

The inverse of a log holds the inverses of its edits in reverse order, so it undoes the steps of the
way back, the last step first.  A step is undone exactly, with one exception: all offsets in text
that was inserted where nothing had been, up to its end, come out at its start (`Edit.Collapses`),
and the inverse leaves the start where it is.

An offset that has collapsed comes out too low, and no later step makes up for it.  What the
inverses are given is at most what the steps of the way back have reached, and they keep it at most
what the steps have started from.  Only what is given in full and has not collapsed comes out in
full (`Edit.retrace_inverse_of_le`).  This carries the induction over the list
(`retraceThrough_inverse_of_le`).
-/

namespace Retrace

variable {edit : Edit} {edits later : List Edit} {offset reached lower : Nat}

/-! ### One step and its inverse -/

namespace Edit

/-- An offset behind the start of an insertion, up to the end of the inserted text.  Undoing the
insertion takes all these offsets to its start. -/
def Collapses (edit : Edit) (offset : Nat) : Prop :=
  edit.removed = "" ∧ edit.offset < offset ∧ offset ≤ edit.offset + edit.inserted.utf8ByteSize

instance (edit : Edit) (offset : Nat) : Decidable (edit.Collapses offset) :=
  inferInstanceAs (Decidable (_ ∧ _))

theorem collapses_iff : edit.Collapses offset ↔
    edit.removed.utf8ByteSize = 0 ∧ edit.offset < offset ∧
      offset ≤ edit.offset + edit.inserted.utf8ByteSize := by
  rw [Collapses, String.utf8ByteSize_eq_zero_iff]

/-- The three places an answer can come from. -/
theorem retrace_cases (h : edit.retrace offset = .ok (some reached)) :
    (offset ≤ edit.offset ∧ reached = offset) ∨ (edit.Collapses offset ∧ reached = edit.offset) ∨
      (edit.offset < offset ∧ edit.offset + edit.inserted.utf8ByteSize ≤ offset ∧
        reached = offset - edit.inserted.utf8ByteSize + edit.removed.utf8ByteSize) := by
  rcases carry_cases (carry_of_retrace h) with hle | ⟨hcovers, heq⟩ | ⟨hlt, hbehind, heq, -⟩
  · exact Or.inl hle
  · -- inside inserted text there is only an answer if nothing was removed
    have hfits : edit.offset + edit.inserted.utf8ByteSize ≤ Offset.limit := by
      rcases hspan : edit.insertedSpan with fault | span
      · rw [retrace, hspan] at h
        cases h
      · exact (Span.ofLength_eq_ok_iff.1 hspan).2.2
    rw [retrace_of_covers hfits hcovers] at h
    split at h
    · next hempty =>
        exact Or.inr (Or.inl ⟨⟨hempty, hcovers.1, Nat.le_of_lt hcovers.2⟩, heq⟩)
    · cases h
  · exact Or.inr (Or.inr ⟨hlt, hbehind, heq⟩)

/-- The inverse of a step, for an offset that is at most what the step has reached.  The calculation
does not break off, and an answer is at most what the step has started from.  It is all of this
exactly if the offset is all that the step has reached, and the step has not collapsed. -/
theorem retrace_inverse_of_le (hfits : edit.offset + edit.removed.utf8ByteSize ≤ Offset.limit)
    (hlimit : offset ≤ Offset.limit) (h : edit.retrace offset = .ok (some reached))
    (hle : lower ≤ reached) :
    ∃ answer, edit.inverse.retrace lower = .ok answer ∧
      (answer = some offset ↔ lower = reached ∧ ¬ edit.Collapses offset) ∧
      ∀ back : Nat, answer = some back → back ≤ offset := by
  have hcases := retrace_cases h
  simp only [collapses_iff] at hcases ⊢
  rcases Nat.lt_or_ge edit.offset lower with hlt | hge
  · rcases Nat.lt_or_ge lower (edit.offset + edit.removed.utf8ByteSize) with hin | hbehind
    · -- the step has reached the end of the removed text or a place behind it
      have hstart : edit.offset < offset := by omega
      refine ⟨_, retrace_of_covers hfits ⟨hlt, hin⟩, ?_, ?_⟩
      · constructor
        · intro hanswer
          split at hanswer
          · cases hanswer
            exact absurd hstart (Nat.lt_irrefl _)
          · cases hanswer
        · rintro ⟨heq, -⟩
          omega
      · intro back hback
        split at hback
        · cases hback
          exact Nat.le_of_lt hstart
        · cases hback
    · -- the step was a shift, which the inverse makes in the other direction
      have hadvance : Offset.advance (lower - edit.removed.utf8ByteSize)
          edit.inserted.utf8ByteSize =
            .ok (lower - edit.removed.utf8ByteSize + edit.inserted.utf8ByteSize) :=
        Offset.advance_eq_ok_iff.2 ⟨rfl, by omega⟩
      refine ⟨some (lower - edit.removed.utf8ByteSize + edit.inserted.utf8ByteSize), ?_, ?_, ?_⟩
      · have hretrace : edit.inverse.retrace lower =
            (Offset.advance (lower - edit.removed.utf8ByteSize)
              edit.inserted.utf8ByteSize).map some := retrace_of_behind hfits hlt hbehind
        rw [hretrace, hadvance]
        rfl
      · rw [Option.some.injEq]
        change lower - edit.removed.utf8ByteSize + edit.inserted.utf8ByteSize = offset ↔ _
        omega
      · rintro back ⟨⟩
        omega
  · -- up to the start of the edit the offset stays
    refine ⟨some lower, retrace_of_le hfits hge, ?_, ?_⟩
    · rw [Option.some.injEq]
      change lower = offset ↔ _
      omega
    · rintro back ⟨⟩
      omega

end Edit

/-! ### Lists of steps -/

/-- On its way back through the edits of a list, the offset is never in text that was inserted where
nothing had been, nor at the end of such text. -/
def NeverCollapses (edits : List Edit) (offset : Nat) : Prop :=
  MeetsBack (fun edit reached => ¬ edit.Collapses reached) edits offset

instance (edits : List Edit) (offset : Nat) : Decidable (NeverCollapses edits offset) :=
  inferInstanceAs (Decidable (MeetsBack _ edits offset))

theorem neverCollapses_cons_iff {between : Nat}
    (hlater : retraceThrough later offset = .ok (some between)) :
    NeverCollapses (edit :: later) offset ↔
      NeverCollapses later offset ∧ ¬ edit.Collapses between := by
  rw [NeverCollapses, meetsBack_cons_iff, hlater]
  simp [NeverCollapses]

/-- The inverses of a way back, for an offset that is at most what this way has reached. -/
theorem retraceThrough_inverse_of_le
    (hfits : ∀ edit ∈ edits, edit.offset + edit.removed.utf8ByteSize ≤ Offset.limit)
    (hlimit : offset ≤ Offset.limit) (h : retraceThrough edits offset = .ok (some reached))
    (hle : lower ≤ reached) :
    ∃ answer, retraceThrough (edits.reverse.map Edit.inverse) lower = .ok answer ∧
      (answer = some offset ↔ lower = reached ∧ NeverCollapses edits offset) ∧
      ∀ back : Nat, answer = some back → back ≤ offset := by
  induction edits generalizing reached lower with
  | nil =>
      cases h
      refine ⟨some lower, rfl, ?_, ?_⟩
      · simp [NeverCollapses, meetsBack_nil]
      · rintro back ⟨⟩
        exact hle
  | cons edit later ih =>
      rw [List.forall_mem_cons] at hfits
      obtain ⟨between, hlater, hstep⟩ := retraceThrough_cons_eq_some_iff.1 h
      rw [neverCollapses_cons_iff hlater, List.reverse_cons, List.map_append,
        retraceThrough_append]
      -- the last step of the way back is the first that is undone
      obtain ⟨answer, hanswer, hexact, hbelow⟩ := Edit.retrace_inverse_of_le hfits.1
        (retraceThrough_le_limit hlimit hlater) hstep hle
      simp only [List.map_cons, List.map_nil, retraceThrough, hanswer]
      rcases answer with _ | (middle : Nat)
      · refine ⟨none, rfl, ?_, fun _ hnone => by cases hnone⟩
        constructor
        · intro hnone
          cases hnone
        · rintro ⟨heq, -, hnot⟩
          cases hexact.2 ⟨heq, hnot⟩
      · obtain ⟨answer, hanswer, hexact', hbelow'⟩ := ih hfits.2 hlater (hbelow middle rfl)
        refine ⟨answer, hanswer, ?_, hbelow'⟩
        rw [hexact']
        constructor
        · rintro ⟨rfl, hnever⟩
          obtain ⟨heq, hnot⟩ := hexact.1 rfl
          exact ⟨heq, hnever, hnot⟩
        · rintro ⟨heq, hnever, hnot⟩
          cases hexact.2 ⟨heq, hnot⟩
          exact ⟨rfl, hnever⟩

/-! ### Logs -/

namespace Log

/-- The log that starts with the inverse of the last edit and goes on with the inverses of the edits
before it, down to the edit that made the copy. -/
def inverse (log : Log) : Log :=
  match log.later.reverse with
  | [] => .start log.creation.inverse
  | last :: front => (Log.start last.inverse).append ((front ++ [log.creation]).map Edit.inverse)

theorem entries_inverse (log : Log) :
    log.inverse.entries = log.entries.reverse.map Edit.inverse := by
  have hreverse : log.entries.reverse = log.later.reverse ++ [log.creation] := List.reverse_cons
  rw [hreverse, inverse]
  rcases log.later.reverse with _ | ⟨last, front⟩
  · rfl
  · simp

/-- **The inverse of a log gives back exactly what has not collapsed.**  The log may hold any edits
whose removed texts end within the range of offsets.  For an offset of this range that the log has
an answer for, the inverse takes the answer back to the offset exactly if no edit on the way back
has removed nothing and met the offset behind its start and not behind the end of its inserted text.
In any case the inverse does not break off at the answer, and what it gives back is not behind the
offset. -/
theorem retrace_inverse_eq_iff {log : Log}
    (hfits : ∀ edit ∈ log.entries, edit.offset + edit.removed.utf8ByteSize ≤ Offset.limit)
    (hlimit : offset ≤ Offset.limit) (h : log.retrace offset = .ok (some reached)) :
    (log.inverse.retrace reached = .ok (some offset) ↔ NeverCollapses log.entries offset) ∧
      ∃ answer, log.inverse.retrace reached = .ok answer ∧
        ∀ back : Nat, answer = some back → back ≤ offset := by
  obtain ⟨answer, hanswer, hexact, hbelow⟩ :=
    retraceThrough_inverse_of_le hfits hlimit h (Nat.le_refl reached)
  rw [retrace, entries_inverse, hanswer]
  refine ⟨?_, answer, rfl, hbelow⟩
  rw [Except.ok.injEq, hexact]
  exact and_iff_right rfl

/-- A dummy was put in, two bytes were replaced by three, and one byte was taken out in front.  The
offset behind everything is given back.  The one at the end of the dummy has come out at the start
of the dummy, and this is what is given back. -/
theorem retrace_inverse_eq_iff_at_dummy :
    let log : Log := ⟨⟨4, "", "dummy"⟩, [⟨10, "é", "xyz"⟩, ⟨0, "a", ""⟩]⟩
    (∀ edit ∈ log.entries, edit.offset + edit.removed.utf8ByteSize ≤ Offset.limit) ∧
      log.retrace 13 = .ok (some 8) ∧ NeverCollapses log.entries 13 ∧
      log.inverse.retrace 8 = .ok (some 13) ∧
      log.retrace 8 = .ok (some 4) ∧ ¬ NeverCollapses log.entries 8 ∧
      log.inverse.retrace 4 ≠ .ok (some 8) ∧ log.inverse.retrace 4 = .ok (some 3) := by
  intro log
  have hfits : ∀ edit ∈ log.entries,
      edit.offset + edit.removed.utf8ByteSize ≤ Offset.limit := by decide
  have hbehind : log.retrace 13 = .ok (some 8) := by decide
  have hend : log.retrace 8 = .ok (some 4) := by decide
  have hnever : NeverCollapses log.entries 13 := by decide
  have hcollapses : ¬ NeverCollapses log.entries 8 := by decide
  refine ⟨hfits, hbehind, hnever, ?_, hend, hcollapses, ?_, ?_⟩
  · exact (retrace_inverse_eq_iff hfits (by decide) hbehind).1.2 hnever
  · intro hback
    exact hcollapses ((retrace_inverse_eq_iff hfits (by decide) hend).1.1 hback)
  · decide

end Log

end Retrace
