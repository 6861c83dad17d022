import Mathlib.Control.Monad.Basic
import Retrace.Edit.Log
import Retrace.Proofs.Edit.Turn

/-!
# The way back through a list of edits

An answer of a list of edits is reached in steps.  The edits are undone one after the other from the
end of the list, and each of them has an answer for what the one before has reached
(`retraceThrough_cons_eq_some_iff`).  A step that has an answer is the step on which the inverse of
the edit carries the offset (`Edit.carry_of_retrace`).  So the way back inherits from carrying that
it keeps the order of offsets, and no text has to exist that the edits fit.

What an edit does to the offset depends on where it meets it.  `MeetsBack` says of a whole list that
every edit on the way meets the offset at a place of some kind.
-/

namespace Retrace

variable {edit : Edit} {edits later : List Edit} {offset other reached otherReached : Nat}

/-! ### Steps -/

/-- A step back that has an answer is the step on which the inverse carries the offset. -/
theorem Edit.carry_of_retrace (h : edit.retrace offset = .ok (some reached)) :
    edit.inverse.carry offset = .ok reached := by
  rw [carry_eq_retrace_inverse, inverse_inverse, h]
  rfl

/-- Undoing an edit keeps the order of offsets. -/
theorem Edit.retrace_le_retrace (hle : offset ≤ other)
    (h : edit.retrace offset = .ok (some reached))
    (h' : edit.retrace other = .ok (some otherReached)) : reached ≤ otherReached :=
  carry_le_carry hle (carry_of_retrace h) (carry_of_retrace h')

/-- An answer within the range of offsets is an offset within this range. -/
theorem Edit.retrace_le_limit (hlimit : offset ≤ Offset.limit)
    (h : edit.retrace offset = .ok (some reached)) : reached ≤ Offset.limit := by
  rcases carry_cases (carry_of_retrace h) with ⟨-, rfl⟩ | ⟨⟨hlt, -⟩, rfl⟩ | ⟨-, -, -, hreached⟩
  · exact hlimit
  · exact Nat.le_trans (Nat.le_of_lt hlt) hlimit
  · exact hreached

theorem retraceThrough_cons_eq_some_iff :
    retraceThrough (edit :: later) offset = .ok (some reached) ↔
      ∃ between : Nat, retraceThrough later offset = .ok (some between) ∧
        edit.retrace between = .ok (some reached) := by
  rw [retraceThrough]
  rcases retraceThrough later offset with fault | (_ | between)
  · simp
  · simp
  · simp

/-! ### Whole lists -/

/-- The way back keeps the order of offsets. -/
theorem retraceThrough_le_retraceThrough (hle : offset ≤ other)
    (h : retraceThrough edits offset = .ok (some reached))
    (h' : retraceThrough edits other = .ok (some otherReached)) : reached ≤ otherReached := by
  induction edits generalizing reached otherReached with
  | nil =>
      cases h
      cases h'
      exact hle
  | cons edit later ih =>
      obtain ⟨between, hlater, hstep⟩ := retraceThrough_cons_eq_some_iff.1 h
      obtain ⟨otherBetween, hlater', hstep'⟩ := retraceThrough_cons_eq_some_iff.1 h'
      exact Edit.retrace_le_retrace (ih hlater hlater') hstep hstep'

theorem retraceThrough_le_limit (hlimit : offset ≤ Offset.limit)
    (h : retraceThrough edits offset = .ok (some reached)) : reached ≤ Offset.limit := by
  induction edits generalizing reached with
  | nil =>
      cases h
      exact hlimit
  | cons edit later ih =>
      obtain ⟨between, hlater, hstep⟩ := retraceThrough_cons_eq_some_iff.1 h
      exact Edit.retrace_le_limit (ih hlater) hstep

/-! ### What the edits meet -/

/-- On its way back through the edits of a list, the offset is at a place of a certain kind for
every edit that is undone. -/
def MeetsBack (kind : Edit → Nat → Prop) (edits : List Edit) (offset : Nat) : Prop :=
  ∀ front edit back reached, edits = front ++ edit :: back →
    retraceThrough back offset = .ok (some reached) → kind edit reached

section

variable {kind : Edit → Nat → Prop}

theorem meetsBack_nil (kind : Edit → Nat → Prop) (offset : Nat) : MeetsBack kind [] offset := by
  intro front edit back reached heq
  cases front <;> cases heq

theorem meetsBack_cons_iff : MeetsBack kind (edit :: later) offset ↔
    MeetsBack kind later offset ∧
      ∀ reached : Nat, retraceThrough later offset = .ok (some reached) → kind edit reached := by
  constructor
  · intro h
    constructor
    · intro front next back reached heq hreached
      exact h (edit :: front) next back reached (congrArg (edit :: ·) heq) hreached
    · intro reached hreached
      exact h [] edit later reached rfl hreached
  · rintro ⟨hrest, hfirst⟩ front next back reached heq hreached
    cases front with
    | nil =>
        cases heq
        exact hfirst reached hreached
    | cons head front =>
        cases heq
        exact hrest front next back reached rfl hreached

instance decidableMeetsBack [∀ edit reached, Decidable (kind edit reached)] :
    (edits : List Edit) → (offset : Nat) → Decidable (MeetsBack kind edits offset)
  | [], offset => isTrue (meetsBack_nil kind offset)
  | edit :: later, offset =>
      have := decidableMeetsBack later offset
      have : Decidable (∀ reached : Nat,
          retraceThrough later offset = .ok (some reached) → kind edit reached) :=
        match hlater : retraceThrough later offset with
        | .error fault => isTrue (by simp)
        | .ok none => isTrue (by simp)
        | .ok (some reached) => decidable_of_iff (kind edit reached) (by simp)
      decidable_of_iff _ meetsBack_cons_iff.symm

end

/-! ### Spans -/

namespace Log

/-- Both ends of a span that have answers make a span again. -/
theorem retraceSpan_of_ends {log : Log} {span : Span} {start stop : Nat}
    (hstart : log.retrace span.start = .ok (some start))
    (hstop : log.retrace span.stop = .ok (some stop)) :
    ∃ hle : start ≤ stop, log.retraceSpan span = .ok (some ⟨start, stop, hle⟩) := by
  have hle : start ≤ stop := retraceThrough_le_retraceThrough span.start_le_stop hstart hstop
  refine ⟨hle, ?_⟩
  simp only [retraceSpan, hstart, hstop, dif_pos hle]

/-- **The way back keeps the order of offsets, and no span is turned round.**  The log may hold any
edits, also such as no text fits.  Of two offsets in order that have answers, the answers are in the
same order.  So a span has an answer exactly if its two ends have answers, and these are the ends of
its answer.  It has none exactly if the start has none, or the start has one and the stop has none:
two answers are never rejected for their order.  In the same way it is only an end that breaks the
calculation off. -/
theorem retrace_keeps_order (log : Log) :
    (∀ offset other reached otherReached : Nat, offset ≤ other →
      log.retrace offset = .ok (some reached) → log.retrace other = .ok (some otherReached) →
        reached ≤ otherReached) ∧
    ∀ span : Span,
      (∀ start stop : Nat,
        (∃ back, log.retraceSpan span = .ok (some back) ∧ back.start = start ∧ back.stop = stop) ↔
          log.retrace span.start = .ok (some start) ∧ log.retrace span.stop = .ok (some stop)) ∧
      (log.retraceSpan span = .ok none ↔
        log.retrace span.start = .ok none ∨
          ∃ start, log.retrace span.start = .ok (some start) ∧ log.retrace span.stop = .ok none) ∧
      ∀ fault, log.retraceSpan span = .error fault ↔
        log.retrace span.start = .error fault ∨
          ∃ start, log.retrace span.start = .ok (some start) ∧
            log.retrace span.stop = .error fault := by
  refine ⟨fun _ _ _ _ hle => retraceThrough_le_retraceThrough hle, ?_⟩
  intro span
  rcases hstart : log.retrace span.start with fault | (_ | start)
  · simp [retraceSpan, hstart]
  · simp [retraceSpan, hstart]
  · rcases hstop : log.retrace span.stop with fault | (_ | stop)
    · simp [retraceSpan, hstart, hstop]
    · simp [retraceSpan, hstart, hstop]
    · obtain ⟨hle, hspan⟩ := retraceSpan_of_ends hstart hstop
      simp [hspan]

/-- Two bytes at offset 2 stand for four, and a dummy was put in behind them.  An offset behind the
two bytes comes out inside the dummy and goes to its start, one behind everything stays behind it,
and the span between them is answered.  A span that starts inside the two bytes is not. -/
theorem retrace_keeps_order_around_gap :
    let log : Log := ⟨⟨4, "", "dummy"⟩, [⟨2, "éé", "xy"⟩]⟩
    log.retrace 4 = .ok (some 4) ∧ log.retrace 9 = .ok (some 6) ∧ (4 : Nat) ≤ 6 ∧
      (∃ back, log.retraceSpan ⟨4, 9, by decide⟩ = .ok (some back) ∧
        back.start = 4 ∧ back.stop = 6) ∧
      log.retrace 3 = .ok none ∧ log.retraceSpan ⟨3, 9, by decide⟩ = .ok none := by
  intro log
  have hstart : log.retrace 4 = .ok (some 4) := by decide
  have hstop : log.retrace 9 = .ok (some 6) := by decide
  have hgap : log.retrace 3 = .ok none := by decide
  obtain ⟨horder, hspans⟩ := log.retrace_keeps_order
  refine ⟨hstart, hstop, horder 4 9 4 6 (by decide) hstart hstop, ?_, hgap, ?_⟩
  · exact ((hspans ⟨4, 9, by decide⟩).1 4 6).2 ⟨hstart, hstop⟩
  · exact (hspans ⟨3, 9, by decide⟩).2.1.2 (Or.inl hgap)

end Log

end Retrace
