import Mathlib.Control.Monad.Basic
import Retrace.Proofs.Document.Store
import Retrace.Proofs.Edit.WayBack

/-!
# Offsets through the history of a document

A document accepts edits one after the other, and the log keeps them in this order.  Taking an
offset of the last text back through the log goes through the texts in between in the opposite
direction: the last edit is undone first, and on the text that it has made.  So every step starts
inside a text and ends inside the text before it (`Edit.Turns.retrace_inside`), and no step can
leave the range of offsets.

An offset that clears all edits on its way, which is to say that it never stands at the start of an
edit or in text that an edit has inserted, has the same byte behind it at both ends of the way
(`exists_reached`).
-/

namespace Retrace

variable {edit creation : Edit} {edits later : List Edit} {before after : String} {offset : Nat}
  {document final : Document}

/-! ### One step back -/

/-- An offset before the text that an edit has inserted, or behind it. -/
def Edit.Clears (edit : Edit) (offset : Nat) : Prop :=
  offset < edit.offset ∨
    (edit.offset < offset ∧ edit.offset + edit.inserted.utf8ByteSize ≤ offset)

instance (edit : Edit) (offset : Nat) : Decidable (edit.Clears offset) :=
  inferInstanceAs (Decidable (_ ∨ _))

/-- An offset inside a text is taken back into the text before the edit, and a boundary to a
boundary, if there is an answer. -/
theorem Edit.Turns.retrace_inside (h : edit.Turns before after)
    (hbefore : before.utf8ByteSize ≤ Offset.limit) (hafter : after.utf8ByteSize ≤ Offset.limit)
    (hle : offset ≤ after.utf8ByteSize) :
    ∃ answer, edit.retrace offset = .ok answer ∧ ∀ reached : Nat, answer = some reached →
      reached ≤ before.utf8ByteSize ∧
        (Text.isBoundary after offset = true → Text.isBoundary before reached = true) := by
  -- the inverse carries every offset, and to the answer if there is one
  obtain ⟨moved, hcarry, hinside⟩ := h.inverse.carry_eq_ok hafter hbefore hle
  have hretrace := carry_eq_retrace_inverse edit.inverse offset
  rw [hcarry, inverse_inverse] at hretrace
  rcases hanswer : edit.retrace offset with fault | answer
  · rw [hanswer] at hretrace
    cases hretrace
  · refine ⟨answer, rfl, ?_⟩
    rintro reached rfl
    rw [hanswer] at hretrace
    cases hretrace
    constructor
    · exact hinside
    · intro hboundary
      exact h.inverse.isBoundary_carry hafter hboundary hcarry

/-- An offset that clears the edit is taken back to the same byte. -/
theorem Edit.Turns.retrace_of_clears (h : edit.Turns before after)
    (hbefore : before.utf8ByteSize ≤ Offset.limit) (hafter : after.utf8ByteSize ≤ Offset.limit)
    (hle : offset ≤ after.utf8ByteSize) (hclears : edit.Clears offset) :
    ∃ reached : Nat, edit.retrace offset = .ok (some reached) ∧
      (Text.bytes after)[offset]? = (Text.bytes before)[reached]? := by
  rcases hclears with hlt | ⟨hlt, hbehind⟩
  · obtain ⟨-, hfront⟩ := h.retrace_front hafter (Nat.le_refl edit.offset)
    obtain ⟨hstays, -⟩ := h.retrace_front hafter (Nat.le_of_lt hlt)
    refine ⟨offset, hstays, ?_⟩
    rw [← List.getElem?_take_of_lt hlt, hfront, List.getElem?_take_of_lt hlt]
  · obtain ⟨reached, -, hretrace, hback⟩ := h.retrace_back hbefore hafter hlt hbehind hle
    refine ⟨reached, hretrace, ?_⟩
    have hbyte := congrArg (fun rest => rest[0]?) hback
    simpa only [List.getElem?_drop, Nat.add_zero] using hbyte

/-! ### The history of a document -/

namespace Document

/-- Make edits in turn, and stop at the first that is not accepted. -/
def applyThrough (document : Document) : List Edit → Except Failure Document
  | [] => .ok document
  | edit :: later =>
      match document.apply edit with
      | .error failure => .error failure
      | .ok edited => edited.applyThrough later

/-- The texts of a document stay within the limit of offsets while edits are made in turn. -/
def FitsThrough (document : Document) : List Edit → Prop
  | [] => document.length ≤ Offset.limit
  | edit :: later =>
      document.length ≤ Offset.limit ∧
        ∀ edited, document.apply edit = .ok edited → edited.FitsThrough later

instance decidableFitsThrough (document : Document) :
    (edits : List Edit) → Decidable (document.FitsThrough edits)
  | [] => inferInstanceAs (Decidable (document.length ≤ Offset.limit))
  | edit :: later =>
      have : Decidable (∀ edited, document.apply edit = .ok edited → edited.FitsThrough later) :=
        match happly : document.apply edit with
        | .error failure => isTrue (by simp)
        | .ok edited =>
            have := decidableFitsThrough edited later
            decidable_of_iff (edited.FitsThrough later) (by simp)
      inferInstanceAs (Decidable (_ ∧ _))

theorem FitsThrough.length_le (h : document.FitsThrough edits) :
    document.length ≤ Offset.limit := by
  cases edits with
  | nil => exact h
  | cons edit later => exact h.1

theorem applyThrough_cons_eq_ok_iff :
    document.applyThrough (edit :: later) = .ok final ↔
      ∃ edited, document.apply edit = .ok edited ∧ edited.applyThrough later = .ok final := by
  rw [applyThrough]
  rcases document.apply edit with failure | edited
  · simp
  · simp

/-- The first edit of a history turns the text, and the others are made on what comes out. -/
theorem exists_of_applyThrough_cons
    (happly : document.applyThrough (edit :: later) = .ok final)
    (hfits : document.FitsThrough (edit :: later)) :
    ∃ edited : Document, edit.Turns document.text edited.text ∧
      document.length ≤ Offset.limit ∧ edited.FitsThrough later ∧
      edited.applyThrough later = .ok final := by
  obtain ⟨edited, hedited, hlater⟩ := applyThrough_cons_eq_ok_iff.1 happly
  have hrest : edited.FitsThrough later := hfits.2 edited hedited
  obtain ⟨-, text, hturns, rfl⟩ := apply_eq_ok_iff.1 hedited
  exact ⟨document.setText text, hturns, hfits.1, hrest, hlater⟩

end Document

/-! ### The way back -/

/-- On its way back through the edits of a list, the offset clears every edit that is undone. -/
def ClearsThrough (edits : List Edit) (offset : Nat) : Prop :=
  ∀ front edit back reached, edits = front ++ edit :: back →
    retraceThrough back offset = .ok (some reached) → edit.Clears reached

theorem clearsThrough_nil (offset : Nat) : ClearsThrough [] offset :=
  meetsBack_nil Edit.Clears offset

theorem clearsThrough_cons_iff : ClearsThrough (edit :: later) offset ↔
    ClearsThrough later offset ∧
      ∀ reached : Nat, retraceThrough later offset = .ok (some reached) → edit.Clears reached :=
  meetsBack_cons_iff

instance decidableClearsThrough : (edits : List Edit) → (offset : Nat) →
    Decidable (ClearsThrough edits offset)
  | [], offset => isTrue (clearsThrough_nil offset)
  | edit :: later, offset =>
      have := decidableClearsThrough later offset
      have : Decidable (∀ reached : Nat,
          retraceThrough later offset = .ok (some reached) → edit.Clears reached) :=
        match hlater : retraceThrough later offset with
        | .error fault => isTrue (by simp)
        | .ok none => isTrue (by simp)
        | .ok (some reached) => decidable_of_iff (edit.Clears reached) (by simp)
      decidable_of_iff _ clearsThrough_cons_iff.symm

namespace Document

/-- The way back from the last text of a history ends inside its first text, if it has an end. -/
theorem exists_answer (happly : document.applyThrough edits = .ok final)
    (hfits : document.FitsThrough edits) (hle : offset ≤ final.length) :
    ∃ answer, retraceThrough edits offset = .ok answer ∧ ∀ reached : Nat, answer = some reached →
      reached ≤ document.length ∧
        (Text.isBoundary final.text offset = true →
          Text.isBoundary document.text reached = true) := by
  induction edits generalizing document with
  | nil =>
      cases happly
      refine ⟨some offset, rfl, ?_⟩
      rintro reached ⟨⟩
      exact ⟨hle, fun hoffset => hoffset⟩
  | cons edit later ih =>
      obtain ⟨edited, hturns, hlength, hlater, hrest⟩ := exists_of_applyThrough_cons happly hfits
      obtain ⟨answer, hanswer, hinside⟩ := ih hrest hlater
      simp only [retraceThrough, hanswer]
      rcases answer with _ | between
      · exact ⟨none, rfl, fun _ hnone => by cases hnone⟩
      · obtain ⟨hbetween, hboundary⟩ := hinside between rfl
        obtain ⟨answer, hanswer, hstep⟩ :=
          hturns.retrace_inside hlength hlater.length_le hbetween
        refine ⟨answer, hanswer, ?_⟩
        intro reached hreached
        obtain ⟨hreached, hkept⟩ := hstep reached hreached
        exact ⟨hreached, fun hoffset => hkept (hboundary hoffset)⟩

/-- An offset that clears all edits is taken back to the same byte. -/
theorem exists_reached (happly : document.applyThrough edits = .ok final)
    (hfits : document.FitsThrough edits) (hle : offset ≤ final.length)
    (hclears : ClearsThrough edits offset) :
    ∃ reached : Nat, retraceThrough edits offset = .ok (some reached) ∧
      (Text.bytes final.text)[offset]? = (Text.bytes document.text)[reached]? := by
  induction edits generalizing document with
  | nil =>
      cases happly
      exact ⟨offset, rfl, rfl⟩
  | cons edit later ih =>
      obtain ⟨edited, hturns, hlength, hlater, hrest⟩ := exists_of_applyThrough_cons happly hfits
      obtain ⟨hothers, hfirst⟩ := clearsThrough_cons_iff.1 hclears
      obtain ⟨between, hbetween, hbyte⟩ := ih hrest hlater hothers
      obtain ⟨answer, hanswer, hinside⟩ := exists_answer hrest hlater hle
      rw [hbetween] at hanswer
      cases hanswer
      obtain ⟨reached, hreached, hsame⟩ := hturns.retrace_of_clears hlength hlater.length_le
        (hinside between rfl).1 (hfirst between hbetween)
      refine ⟨reached, ?_, hbyte.trans hsame⟩
      simp only [retraceThrough, hbetween]
      exact hreached

end Document

theorem Log.foldl_push (log : Log) (edits : List Edit) :
    edits.foldl Log.push log = log.append edits := by
  induction edits generalizing log with
  | nil =>
      cases log
      simp [append]
  | cons edit rest ih =>
      rw [List.foldl_cons, ih]
      simp [push, append]

/-- **A log takes offsets back through the history of a document.**  A document accepts a non-empty
list of edits in turn, and all texts on the way are within the limit of offsets.  The log is made of
the same edits in the same order.  Then every offset of the last text has a result, no calculation
breaks off.  A boundary of the last text has no answer, or it is a boundary of the first text.  An
offset that clears every edit on its way back has an answer, and if it is before the end of the last
text, then the same byte is there and at the answer in the first text. -/
theorem retrace_undoes_history (happly : document.applyThrough (creation :: later) = .ok final)
    (hfits : document.FitsThrough (creation :: later)) :
    let log := later.foldl Log.push (.start creation)
    ∀ offset, offset ≤ final.length →
      (∃ answer, log.retrace offset = .ok answer) ∧
      (Text.isBoundary final.text offset = true →
        log.retrace offset = .ok none ∨
          ∃ reached : Nat, log.retrace offset = .ok (some reached) ∧
            reached ≤ document.length ∧ Text.isBoundary document.text reached = true) ∧
      (ClearsThrough log.entries offset →
        ∃ reached : Nat, log.retrace offset = .ok (some reached) ∧
          (offset < final.length →
            ∃ byte, (Text.bytes final.text)[offset]? = some byte ∧
              (Text.bytes document.text)[reached]? = some byte)) := by
  intro log offset hle
  have hentries : log.entries = creation :: later := by
    simp only [log, Log.foldl_push, Log.entries_append, Log.entries_start, List.singleton_append]
  have hretrace : log.retrace offset = retraceThrough (creation :: later) offset := by
    rw [Log.retrace, hentries]
  obtain ⟨answer, hanswer, hinside⟩ := Document.exists_answer happly hfits hle
  rw [hretrace, hentries, hanswer]
  refine ⟨⟨answer, rfl⟩, ?_, ?_⟩
  · intro hoffset
    rcases answer with _ | reached
    · exact Or.inl rfl
    · obtain ⟨hreached, hboundary⟩ := hinside reached rfl
      exact Or.inr ⟨reached, rfl, hreached, hboundary hoffset⟩
  · intro hclears
    obtain ⟨reached, hreached, hbyte⟩ := Document.exists_reached happly hfits hle hclears
    refine ⟨reached, hanswer.symm.trans hreached, ?_⟩
    intro hlt
    have hindex : offset < (Text.bytes final.text).length := by
      rw [Text.length_bytes]
      exact hlt
    have hfinal := List.getElem?_eq_getElem hindex
    exact ⟨_, hfinal, hbyte.symm.trans hfinal⟩

/-- A word is replaced, two bytes are put in front, and what is between is removed again.  The last
letter clears all three edits and is found where it was, the boundary behind the first letter is
taken back to the start, and a place in the new word has no answer. -/
theorem retrace_undoes_three_edits :
    let document : Document := .fresh ⟨0⟩ (some "/a") "ab cde" none
    let creation : Edit := ⟨3, "cd", "XYZ"⟩
    let later : List Edit := [⟨0, "", "é"⟩, ⟨2, "ab ", ""⟩]
    let final : Document := ⟨⟨0⟩, some "/a", "éXYZe", ⟨3⟩, ⟨0⟩, none⟩
    let log := later.foldl Log.push (.start creation)
    document.applyThrough (creation :: later) = .ok final ∧
      document.FitsThrough (creation :: later) ∧ ClearsThrough log.entries 5 ∧
      (∃ reached : Nat, log.retrace 5 = .ok (some reached) ∧ reached = 5 ∧
        ∃ byte, (Text.bytes "éXYZe")[5]? = some byte ∧
          (Text.bytes "ab cde")[reached]? = some byte) ∧
      (log.retrace 2 = .ok none ∨ ∃ reached : Nat, log.retrace 2 = .ok (some reached) ∧
        reached ≤ 6 ∧ Text.isBoundary "ab cde" reached = true) ∧
      log.retrace 3 = .ok none := by
  intro document creation later final log
  have happly : document.applyThrough (creation :: later) = .ok final := by decide
  have hfits : document.FitsThrough (creation :: later) := by decide
  have hclears : ClearsThrough log.entries 5 := by decide
  have hlength : final.length = 6 := by decide
  have hhistory := retrace_undoes_history happly hfits
  obtain ⟨reached, hreached, hbyte⟩ := (hhistory 5 (by omega)).2.2 hclears
  have hfive : reached = 5 := by
    have hanswer : log.retrace 5 = .ok (some 5) := rfl
    cases hanswer.symm.trans hreached
    rfl
  exact ⟨happly, hfits, hclears, ⟨reached, hreached, hfive, hbyte (by omega)⟩,
    (hhistory 2 (by omega)).2.1 (by decide), rfl⟩

end Retrace
