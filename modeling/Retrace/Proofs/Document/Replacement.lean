import Retrace.Proofs.Document.Store

/-!
# Replacing a span and applying an edit

A document can be edited by a span with a new text, or by an edit that was made elsewhere and says
which text it removes.  The two check different things: a span is checked against the length and the
characters of the text, and the removed text of an edit also against what is there.  But an edit
determines its span, so there is only one verdict to be had.  Applying an edit is replacing its
span, with one more look at the text that this removes (`apply_eq_replace`).
-/

namespace Retrace

namespace Edit

theorem removedSpan_eq_ok_iff {edit : Edit} {span : Span} :
    edit.removedSpan = .ok span ↔ span.start = edit.offset ∧
      span.stop = edit.offset + edit.removed.utf8ByteSize ∧
      edit.offset + edit.removed.utf8ByteSize ≤ Offset.limit :=
  Span.ofLength_eq_ok_iff

end Edit

namespace Document

variable {document edited : Document} {edit : Edit} {span : Span} {parts : Text.Cut} {text : String}

/-! ### The verdict on a span -/

/-- A span that stops behind the end is refused, wherever it starts. -/
theorem cut_of_beyond (h : document.length < span.stop) :
    document.cut span = .error (.outOfBounds document.id span document.length) := by
  rw [cut, Text.cut_of_beyond h]

theorem cut_of_start_inside (hle : span.stop ≤ document.length)
    (h : Text.isBoundary document.text span.start = false) :
    document.cut span = .error (.notCharBoundary document.id span.start) := by
  rw [cut, Text.cut_of_start_inside hle h]

theorem cut_of_stop_inside (hle : span.stop ≤ document.length)
    (hstart : Text.isBoundary document.text span.start = true)
    (hstop : Text.isBoundary document.text span.stop = false) :
    document.cut span = .error (.notCharBoundary document.id span.stop) := by
  rw [cut, Text.cut_of_stop_inside hle hstart hstop]

theorem exists_cut_iff :
    (∃ parts, document.cut span = .ok parts) ↔
      Text.isBoundary document.text span.start = true ∧
        Text.isBoundary document.text span.stop = true := by
  rw [← Text.exists_cut_iff]
  exact exists_congr fun parts => cut_eq_ok_iff

theorem replace_of_cut_error {refusal : Refusal} (h : document.cut span = .error refusal)
    (text : String) : document.replace span text = .error refusal := by
  rw [replace, h]

theorem replace_of_cut (h : document.cut span = .ok parts) (text : String) :
    document.replace span text =
      .ok (⟨span.start, parts.inside, text⟩, document.setText (parts.replace text)) := by
  rw [replace, h]

theorem replace_eq_ok_iff :
    document.replace span text = .ok (edit, edited) ↔
      ∃ parts, document.cut span = .ok parts ∧ edit = ⟨span.start, parts.inside, text⟩ ∧
        edited = document.setText (parts.replace text) := by
  constructor
  · intro h
    rcases hcut : document.cut span with refusal | parts
    · rw [replace_of_cut_error hcut] at h
      cases h
    · rw [replace_of_cut hcut] at h
      cases h
      exact ⟨parts, rfl, rfl, rfl⟩
  · rintro ⟨parts, hcut, rfl, rfl⟩
    exact replace_of_cut hcut text

/-- A document replaces a span between two boundaries, and no other. -/
theorem exists_replace_iff :
    (∃ made, document.replace span text = .ok made) ↔
      span.stop ≤ document.length ∧ Text.isBoundary document.text span.start = true ∧
        Text.isBoundary document.text span.stop = true := by
  constructor
  · rintro ⟨⟨edit, edited⟩, hreplace⟩
    obtain ⟨parts, hcut, -, -⟩ := replace_eq_ok_iff.1 hreplace
    obtain ⟨hstart, hstop⟩ := exists_cut_iff.1 ⟨parts, hcut⟩
    exact ⟨Text.le_size_of_isBoundary hstop, hstart, hstop⟩
  · rintro ⟨-, hstart, hstop⟩
    obtain ⟨parts, hcut⟩ := exists_cut_iff.2 ⟨hstart, hstop⟩
    exact ⟨_, replace_of_cut hcut text⟩

/-! ### One verdict for both -/

/-- Applying an edit is replacing its span, with one more look at the text that is removed. -/
theorem apply_eq_replace (hspan : edit.removedSpan = .ok span) :
    document.apply edit =
      match document.replace span edit.inserted with
      | .error refusal => .error (.refused refusal)
      | .ok (made, edited) =>
          if made.removed = edit.removed then .ok edited
          else .error (.refused
            (.inconsistentEdit document.id edit.offset edit.removed made.removed)) := by
  simp only [apply, hspan]
  rcases hcut : document.cut span with refusal | parts
  · rw [replace_of_cut_error hcut]
  · rw [replace_of_cut hcut]

/-- The edit that a replacement is said to be is accepted and makes the same document. -/
theorem apply_of_replace (hfits : document.length ≤ Offset.limit)
    (h : document.replace span text = .ok (edit, edited)) : document.apply edit = .ok edited := by
  obtain ⟨parts, hcut, rfl, rfl⟩ := replace_eq_ok_iff.1 h
  have hturns : Edit.Turns ⟨span.start, parts.inside, text⟩ document.text (parts.replace text) :=
    turns_of_cut hcut
  exact apply_of_turns (Nat.le_trans hturns.removed_le hfits) hturns

/-- An edit that is accepted is what the replacement of its span is said to be. -/
theorem replace_of_apply (h : document.apply edit = .ok edited) :
    ∃ span, edit.removedSpan = .ok span ∧
      document.replace span edit.inserted = .ok (edit, edited) := by
  rcases hspan : edit.removedSpan with fault | span
  · rw [apply, hspan] at h
    cases h
  · refine ⟨span, rfl, ?_⟩
    rw [apply_eq_replace hspan] at h
    rcases hreplace : document.replace span edit.inserted with refusal | ⟨made, replaced⟩
    · rw [hreplace] at h
      cases h
    · rw [hreplace] at h
      simp only at h
      split at h
      · next hremoved =>
          cases h
          obtain ⟨parts, -, rfl, rfl⟩ := replace_eq_ok_iff.1 hreplace
          obtain ⟨hstart, -, -⟩ := Edit.removedSpan_eq_ok_iff.1 hspan
          simp only at hremoved
          rw [hremoved, hstart]
      · cases h

/-- A span is refused for what it is, not for a text that is missing. -/
theorem cut_ne_inconsistentEdit {id : DocumentId} {offset : Nat} {expected found : String} :
    document.cut span ≠ .error (.inconsistentEdit id offset expected found) := by
  unfold cut
  rcases Text.cut document.text span with (_ | inside) | parts <;> simp

/-- An edit is inconsistent exactly if its span fits a piece of the text, and that is another text
than the one it removes. -/
theorem apply_eq_inconsistentEdit_iff {id : DocumentId} {offset : Nat} {expected found : String} :
    document.apply edit = .error (.refused (.inconsistentEdit id offset expected found)) ↔
      (id = document.id ∧ offset = edit.offset ∧ expected = edit.removed) ∧
        ∃ span before after, edit.removedSpan = .ok span ∧
          document.text = before ++ found ++ after ∧ before.utf8ByteSize = span.start ∧
          (before ++ found).utf8ByteSize = span.stop ∧ found ≠ edit.removed := by
  constructor
  · intro h
    rcases hspan : edit.removedSpan with fault | span
    · rw [apply, hspan] at h
      cases h
    · rw [apply_eq_replace hspan] at h
      rcases hcut : document.cut span with refusal | parts
      · rw [replace_of_cut_error hcut] at h
        cases h
        exact absurd hcut cut_ne_inconsistentEdit
      · rw [replace_of_cut hcut] at h
        obtain ⟨htext, hbefore, hinside⟩ := cut_eq_ok_iff_append.1 hcut
        simp only at h
        split at h
        · cases h
        · next hother =>
            cases h
            exact ⟨⟨rfl, rfl, rfl⟩, span, parts.before, parts.after, rfl, htext, hbefore, hinside,
              hother⟩
  · rintro ⟨⟨rfl, rfl, rfl⟩, span, before, after, hspan, htext, hbefore, hinside, hother⟩
    have hcut : document.cut span = .ok ⟨before, found, after⟩ :=
      cut_eq_ok_iff_append.2 ⟨htext, hbefore, hinside⟩
    rw [apply_eq_replace hspan, replace_of_cut hcut]
    simp only [if_neg hother]

end Document

end Retrace
