import Retrace.Proofs.Document.History

/-!
# Undoing a history

An accepted edit turns one text into another, and its inverse turns the second text back into the
first.  So the inverse passes every check on the edited text, whatever other edits were made before
it and wherever, and what it makes is the text from before the edit (`apply_inverse`).  A history is
undone by the inverses of its edits, the last one first (`undo_restores_document`): each of them
finds the text that its edit has left, because all later edits are undone by then.

The stamp of the last change counts edits, and undoing an edit is one more.
-/

namespace Retrace.Document

variable {document edited middle final other : Document} {edit : Edit}
  {edits front back : List Edit}

/-! ### Histories in two parts -/

theorem applyThrough_append_of_ok (hfront : document.applyThrough front = .ok middle)
    (hback : middle.applyThrough back = .ok final) :
    document.applyThrough (front ++ back) = .ok final := by
  induction front generalizing document with
  | nil =>
      cases hfront
      exact hback
  | cons edit rest ih =>
      obtain ⟨edited, hedited, hrest⟩ := applyThrough_cons_eq_ok_iff.1 hfront
      exact applyThrough_cons_eq_ok_iff.2 ⟨edited, hedited, ih hrest⟩

/-! ### One step -/

/-- A document that has the text an edit has left accepts the inverse, and gets the text back from
before the edit. -/
theorem apply_inverse (happly : document.apply edit = .ok edited)
    (hfits : edited.length ≤ Offset.limit) (htext : other.text = edited.text) :
    other.apply edit.inverse = .ok (other.setText document.text) := by
  obtain ⟨-, text, hturns, rfl⟩ := apply_eq_ok_iff.1 happly
  apply apply_of_turns
  · exact Nat.le_trans hturns.inserted_le hfits
  · rw [htext]
    exact hturns.inverse

/-! ### The whole history -/

/-- **Edits are undone by their inverses.**  A document accepts a list of edits in turn, and all
texts on the way are within the limit of offsets.  Then the document that comes out accepts the
inverses of these edits, the last edit first, and what they make is the document as it was: the same
text under the same number and path, a copy of the same document or none, committed at the same
stamp.  Only the stamp of the last change has counted every edit twice. -/
theorem undo_restores_document (happly : document.applyThrough edits = .ok final)
    (hfits : document.FitsThrough edits) :
    final.applyThrough (edits.reverse.map Edit.inverse) =
      .ok { document with modified := ⟨document.modified.value + 2 * edits.length⟩ } := by
  induction edits generalizing document with
  | nil =>
      cases happly
      rfl
  | cons edit later ih =>
      obtain ⟨edited, hedited, hlater⟩ := applyThrough_cons_eq_ok_iff.1 happly
      have hrest : edited.FitsThrough later := hfits.2 edited hedited
      have hback := ih hlater hrest
      -- all later edits are undone, so the text is the one that this edit has left
      have hundone : ∀ other : Document, other.text = edited.text →
          other.apply edit.inverse = .ok (other.setText document.text) :=
        fun _ => apply_inverse hedited hrest.length_le
      obtain ⟨-, text, -, rfl⟩ := apply_eq_ok_iff.1 hedited
      rw [List.reverse_cons, List.map_append]
      apply applyThrough_append_of_ok hback
      apply applyThrough_cons_eq_ok_iff.2
      refine ⟨_, hundone _ rfl, ?_⟩
      have hstamp : document.modified.value + 1 + 2 * later.length + 1 =
          document.modified.value + 2 * (later.length + 1) := by omega
      simp only [setText, Stamp.next, List.length_cons, hstamp]
      rfl

/-- A copy that was changed before and not committed since.  Two bytes that are one character go,
the second edit takes what is around their place, the third takes a part of what the second has
inserted, and the last one writes at the end. -/
theorem undo_restores_overlapped :
    let document : Document := ⟨⟨3⟩, none, "aé cd", ⟨5⟩, ⟨2⟩, some ⟨0⟩⟩
    let edits : List Edit := [⟨1, "é", ""⟩, ⟨0, "a c", "ééX"⟩, ⟨2, "éX", ""⟩, ⟨3, "", "\n"⟩]
    let final : Document := ⟨⟨3⟩, none, "éd\n", ⟨9⟩, ⟨2⟩, some ⟨0⟩⟩
    document.applyThrough edits = .ok final ∧ document.FitsThrough edits ∧
      final.applyThrough [⟨3, "\n", ""⟩, ⟨2, "", "éX"⟩, ⟨0, "ééX", "a c"⟩, ⟨1, "", "é"⟩] =
        .ok ⟨⟨3⟩, none, "aé cd", ⟨13⟩, ⟨2⟩, some ⟨0⟩⟩ := by
  intro document edits final
  have happly : document.applyThrough edits = .ok final := by decide
  have hfits : document.FitsThrough edits := by decide
  exact ⟨happly, hfits, undo_restores_document happly hfits⟩

end Retrace.Document
