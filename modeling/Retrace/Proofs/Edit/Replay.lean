import Retrace.Edit.Log
import Retrace.Proofs.Edit.Turn

/-!
# Edits undone in the order of a log

A log that has merged edits of the source is undone from its end.  So the last edit is undone
first, on an offset of the copy that has not been taken back yet, and the edit that made the
copy comes at the end.  Undoing the inverse of an edit is carrying the offset over the edit.  So
what the merged part of a log does is to carry an offset over the edits in reverse order
(`retraceThrough_reverse_inverse`).
-/

namespace Retrace

variable {edits : List Edit} {edit creation : Edit} {offset tracked : Nat}

/-- Carry an offset over edits, one after the other. -/
def carryThrough : List Edit → Nat → Checked Offset
  | [], offset => .ok offset
  | edit :: later, offset =>
      match edit.carry offset with
      | .error fault => .error fault
      | .ok moved => carryThrough later moved

theorem carryThrough_append (front back : List Edit) (offset : Nat) :
    carryThrough (front ++ back) offset = (carryThrough front offset).bind (carryThrough back) := by
  induction front generalizing offset with
  | nil => rfl
  | cons edit rest ih =>
      simp only [List.cons_append, carryThrough]
      rcases edit.carry offset with fault | moved
      · rfl
      · exact ih moved

theorem carryThrough_append_eq_ok_iff {front back : List Edit} :
    carryThrough (front ++ back) offset = .ok tracked ↔
      ∃ moved : Nat, carryThrough front offset = .ok moved ∧
        carryThrough back moved = .ok tracked := by
  rw [carryThrough_append]
  rcases carryThrough front offset with fault | moved
  · simp [Except.bind]
  · simp [Except.bind]

theorem carryThrough_singleton (edit : Edit) (offset : Nat) :
    carryThrough [edit] offset = edit.carry offset := by
  rw [carryThrough]
  rcases edit.carry offset with fault | moved <;> rfl

/-- A way over several edits that has a result begins with a way over the first of them. -/
theorem carryThrough_cons_eq_ok (h : carryThrough (edit :: edits) offset = .ok tracked) :
    ∃ moved : Nat, edit.carry offset = .ok moved ∧ carryThrough edits moved = .ok tracked := by
  rw [carryThrough] at h
  rcases hmoved : edit.carry offset with fault | moved
  · rw [hmoved] at h
    cases h
  · rw [hmoved] at h
    exact ⟨moved, rfl, h⟩

/-! ### The merged part of a log -/

/-- On its way over edits, the offset is never strictly inside text that is removed. -/
def NeverCovered (edits : List Edit) (offset : Nat) : Prop :=
  ∀ front edit back reached, edits = front ++ edit :: back →
    carryThrough front offset = .ok reached → ¬ edit.Covers reached

theorem neverCovered_nil (offset : Nat) : NeverCovered [] offset := by
  intro front edit back reached heq
  cases front <;> cases heq

theorem neverCovered_cons_iff : NeverCovered (edit :: edits) offset ↔
    ¬ edit.Covers offset ∧
      ∀ moved : Nat, edit.carry offset = .ok moved → NeverCovered edits moved := by
  constructor
  · intro h
    refine ⟨h [] edit edits offset rfl rfl, ?_⟩
    intro moved hmoved front next back reached heq hreached
    refine h (edit :: front) next back reached (congrArg (edit :: ·) heq) ?_
    simp only [carryThrough, hmoved]
    exact hreached
  · rintro ⟨hfirst, hrest⟩ front next back reached heq hreached
    cases front with
    | nil =>
        cases heq
        cases hreached
        exact hfirst
    | cons head front =>
        cases heq
        obtain ⟨moved, hmoved, hlater⟩ := carryThrough_cons_eq_ok hreached
        exact hrest moved hmoved front next back reached rfl hlater

instance decidableNeverCovered : (edits : List Edit) → (offset : Nat) →
    Decidable (NeverCovered edits offset)
  | [], offset => isTrue (neverCovered_nil offset)
  | edit :: later, offset =>
      match hmoved : edit.carry offset with
      | .error fault =>
          decidable_of_iff (¬ edit.Covers offset) (by simp [neverCovered_cons_iff, hmoved])
      | .ok moved =>
          have := decidableNeverCovered later moved
          decidable_of_iff (¬ edit.Covers offset ∧ NeverCovered later moved)
            (by simp [neverCovered_cons_iff, hmoved])

/-- Undoing merged edits, the last first, is carrying the offset over them in reverse order. -/
theorem retraceThrough_reverse_inverse (h : NeverCovered edits offset) :
    retraceThrough (edits.reverse.map Edit.inverse) offset =
      (carryThrough edits offset).map some := by
  induction edits generalizing offset with
  | nil => rfl
  | cons edit rest ih =>
      obtain ⟨hnot, hrest⟩ := neverCovered_cons_iff.1 h
      have hfirst : edit.inverse.retrace offset = (edit.carry offset).map some :=
        Edit.retrace_inverse_of_not_covers hnot
      rw [List.reverse_cons, List.map_append, retraceThrough_append]
      simp only [List.map_cons, List.map_nil, retraceThrough, carryThrough, hfirst]
      rcases hmoved : edit.carry offset with fault | moved
      · rfl
      · exact ih (hrest moved hmoved)

/-- The whole log: the offset is carried over the merged edits in reverse order, and then taken
back through the edit that made the copy. -/
theorem retraceThrough_creation_cons (h : NeverCovered edits.reverse offset) :
    retraceThrough (creation :: edits.map Edit.inverse) offset =
      (carryThrough edits.reverse offset).bind creation.retrace := by
  have hmerged := retraceThrough_reverse_inverse h
  rw [List.reverse_reverse] at hmerged
  rw [retraceThrough, hmerged]
  rcases carryThrough edits.reverse offset with fault | reached <;> rfl

end Retrace
