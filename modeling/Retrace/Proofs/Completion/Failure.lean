import Retrace.Proofs.Completion.Marks
import Retrace.Proofs.Completion.Trace

/-!
# Failed calls change nothing

Every call that can fail writes to several tables, one after the other, and may still ask for a
document in between.  All its refusals come before the first write, so a refused call, and a
call that finds nothing to close or to dispose of, hands back the workspace that it was given
(`step_of_isRefusal`).  This needs no invariant.

A call can also break off because an offset leaves its range, and an edit could do so after the
text has been edited, when the named offsets are carried along.  In reachable states it does not
(`Marked.noteEdit_of_apply`): with texts within the limit, an edit that the document accepts is
reported as accepted.  The commit that a policy may ask for afterwards finds the document open
and cannot be refused either.
-/

namespace Retrace.Workspace

variable {workspace : Workspace} {source id : DocumentId} {edit : Edit} {span : Span}
  {parts : Text.Cut} {document edited : Document} {call : Call} {calls : List Call}

/-- The reply of a call that was refused, or that found nothing to close or to dispose of. -/
def Reply.isRefusal : Reply → Bool
  | .failed (.refused _) => true
  | .closed wasOpen => !wasOpen
  | .disposed wasLive => !wasLive
  | _ => false

/-! ### Refusals -/

theorem noteEdit_of_refused {refusal : Refusal}
    (h : (workspace.noteEdit source edit).1 = .error (.refused refusal)) :
    (workspace.noteEdit source edit).2 = workspace := by
  rcases workspace.noteEdit_cases source edit with ⟨failure, heq⟩ | ⟨_, _, -, -, -, hmade⟩
  · rw [heq]
  · -- what is made is not refused afterwards
    rcases hmade with ⟨fault, -, heq⟩ | ⟨-, heq⟩ | ⟨-, heq⟩ <;> rw [heq] at h <;> cases h

/-- A span is not edited because it does not cut the text, or because the report of the edit that
this is fails. -/
theorem edit_error_cases {text : String} {failure : Failure}
    (h : (workspace.edit id span text).1 = .error failure) :
    (workspace.edit id span text).2 = workspace ∨
      ∃ edit, (workspace.noteEdit id edit).1 = .error failure ∧
        (workspace.edit id span text).2 = (workspace.noteEdit id edit).2 := by
  rcases workspace.edit_cases id span text with ⟨refusal, heq⟩ | ⟨document, parts, -, -, heq⟩
  · rw [heq]
    exact Or.inl rfl
  · rw [heq] at h ⊢
    refine Or.inr ⟨⟨span.start, parts.inside, text⟩, ?_, rfl⟩
    rcases hnoted : (workspace.noteEdit id ⟨span.start, parts.inside, text⟩).1 with found | _
    · rw [hnoted] at h
      cases h
      rfl
    · rw [hnoted] at h
      cases h

theorem commit_of_error {failure : Failure} (h : (workspace.commit source).1 = .error failure) :
    (workspace.commit source).2 = workspace := by
  rcases workspace.commit_cases source with ⟨-, heq⟩ | ⟨document, count, -, heq⟩
  · rw [heq]
    rfl
  · rw [heq] at h
    cases h

theorem start_of_error {replacement : String} {failure : Failure}
    (h : (workspace.start source span replacement).1 = .error failure) :
    (workspace.start source span replacement).2 = workspace := by
  rcases workspace.start_cases source span replacement with
    ⟨refusal, heq⟩ | ⟨_, _, _, _, -, -, -, -, heq⟩
  · rw [heq]
    rfl
  · rw [heq] at h
    cases h

theorem startAt_of_error {caret : Nat} {failure : Failure}
    (h : (workspace.startAt source caret).1 = .error failure) :
    (workspace.startAt source caret).2 = workspace := by
  rcases workspace.startAt_cases source caret with ⟨failure', heq⟩ | ⟨_, _, -, -, heq⟩
  · rw [heq]
  · rw [heq] at h ⊢
    exact start_of_error h

theorem closeDocument_of_false (h : (workspace.closeDocument id).1 = false) :
    (workspace.closeDocument id).2 = workspace := by
  rcases workspace.closeDocument_cases id with
    ⟨-, heq⟩ | ⟨document, -, -, heq⟩ | ⟨document, source, -, -, ⟨-, heq⟩ | ⟨tracer, -, heq⟩⟩
  · rw [heq]
  · rw [heq] at h
    cases h
  · rw [heq] at h
    cases h
  · rw [heq] at h
    cases h

theorem dispose_of_false {handle : Handle} (h : (workspace.dispose handle).1 = false) :
    (workspace.dispose handle).2 = workspace := by
  rcases workspace.dispose_cases handle with ⟨-, heq⟩ | ⟨tracer, -, heq⟩
  · rw [heq]
  · rw [heq] at h
    cases h

theorem Reply.ofAnswer_eq_failed {α : Type} {reply : α → Reply} {answer : Except Failure α}
    {failure : Failure} (hreply : ∀ a, reply a ≠ .failed failure)
    (h : Reply.ofAnswer reply answer = .failed failure) : answer = .error failure := by
  cases answer with
  | error found =>
      cases h
      rfl
  | ok a => exact absurd h (hreply a)

theorem Reply.ofAnswer_eq_started {answer : Except Failure Completion} {completion : Completion}
    (h : Reply.ofAnswer .started answer = .started completion) : answer = .ok completion := by
  cases answer with
  | error failure => cases h
  | ok found =>
      cases h
      rfl

theorem Reply.ofAnswer_ne_started {α : Type} {reply : α → Reply} {answer : Except Failure α}
    {completion : Completion} (hreply : ∀ a, reply a ≠ .started completion) :
    Reply.ofAnswer reply answer ≠ .started completion := by
  cases answer with
  | error failure => simp [Reply.ofAnswer]
  | ok a => exact hreply a

theorem Reply.exists_refusal {α : Type} {reply : α → Reply} {answer : Except Failure α}
    (hreply : ∀ a, (reply a).isRefusal = false)
    (h : (Reply.ofAnswer reply answer).isRefusal = true) :
    ∃ refusal, answer = .error (.refused refusal) := by
  rcases answer with (refusal | fault) | a
  · exact ⟨refusal, rfl⟩
  · cases h
  · exact absurd h (by rw [Reply.ofAnswer, hreply a]; exact Bool.false_ne_true)

/-- A refused call hands back the workspace that it was given. -/
theorem step_of_isRefusal (h : (workspace.step call).1.isRefusal = true) :
    (workspace.step call).2 = workspace := by
  cases call with
  | openDocument path text => cases h
  | closeDocument id => exact closeDocument_of_false (Bool.not_eq_true' _ ▸ h)
  | noteEdit source edit =>
      obtain ⟨refusal, hrefused⟩ := Reply.exists_refusal (fun _ => rfl) h
      exact noteEdit_of_refused hrefused
  | edit id span text =>
      obtain ⟨refusal, hrefused⟩ := Reply.exists_refusal (fun _ => rfl) h
      rcases edit_error_cases hrefused with hsame | ⟨edit, hnoted, heq⟩
      · exact hsame
      · exact heq.trans (noteEdit_of_refused hnoted)
  | commit source =>
      obtain ⟨refusal, hrefused⟩ := Reply.exists_refusal (fun _ => rfl) h
      exact commit_of_error hrefused
  | start source span replacement =>
      obtain ⟨refusal, hrefused⟩ := Reply.exists_refusal (fun _ => rfl) h
      exact start_of_error hrefused
  | startAt source caret =>
      obtain ⟨refusal, hrefused⟩ := Reply.exists_refusal (fun _ => rfl) h
      exact startAt_of_error hrefused
  | dispose handle => exact dispose_of_false (Bool.not_eq_true' _ ▸ h)
  | disposeAll => cases h
  | onDocuments call => cases h

/-! ### Calls that break off -/

/-- An edit that the document accepts is reported as accepted, under every policy. -/
theorem Marked.noteEdit_of_apply (h : workspace.Marked)
    (hopen : workspace.documents.find? source = some document) (hcopy : document.copyOf = none)
    (happly : document.apply edit = .ok edited) (hfits : document.length ≤ Offset.limit)
    (hfits' : edited.length ≤ Offset.limit) :
    (workspace.noteEdit source edit).1 = .ok () ∧
      (workspace.noteEdit source edit).2.text? source = some edited.text := by
  rcases Workspace.noteEdit_of_apply hopen hcopy happly with
    ⟨fault, hfault, -⟩ | ⟨-, heq⟩ | ⟨-, heq⟩
  · obtain ⟨-, text, hturns, rfl⟩ := Document.apply_eq_ok_iff.1 happly
    rw [h.sweep_eq_ok hopen hturns hfits hfits'] at hfault
    cases hfault
  · rw [heq]
    exact ⟨rfl, text?_of_open find?_source_withEdit⟩
  · rw [heq]
    refine ⟨rfl, ?_⟩
    rw [text?_withCommit find?_source_withEdit]
    exact text?_of_open find?_source_withEdit

/-- Replacing a span that cuts the text is reported as the edit that this is. -/
theorem Marked.edit_of_cut (h : workspace.Marked)
    (hopen : workspace.documents.find? source = some document) (hcopy : document.copyOf = none)
    (hcut : document.cut span = .ok parts) {text : String} (hfits : document.length ≤ Offset.limit)
    (hfits' : (parts.replace text).utf8ByteSize ≤ Offset.limit) :
    (workspace.edit source span text).1 = .ok ⟨span.start, parts.inside, text⟩ ∧
      (workspace.edit source span text).2.text? source = some (parts.replace text) := by
  have hturns : Edit.Turns ⟨span.start, parts.inside, text⟩ document.text (parts.replace text) :=
    Document.turns_of_cut hcut
  have happly := Document.apply_of_turns (Nat.le_trans hturns.removed_le hfits) hturns
  obtain ⟨hok, htext⟩ := h.noteEdit_of_apply hopen hcopy happly hfits hfits'
  rw [Workspace.edit_of_cut hopen hcut, hok]
  exact ⟨rfl, htext⟩

/-- If an edit leaves all texts within the limit, then also the text that it made. -/
theorem Fits.edited_length_le (hfits : (workspace.noteEdit source edit).2.Fits)
    (hopen : workspace.documents.find? source = some document) (hcopy : document.copyOf = none)
    (happly : document.apply edit = .ok edited) : edited.length ≤ Offset.limit := by
  rcases Workspace.noteEdit_of_apply hopen hcopy happly with
    ⟨fault, -, heq⟩ | ⟨-, heq⟩ | ⟨-, heq⟩
  · rw [heq] at hfits
    exact hfits.length_le find?_source_withEdit
  · rw [heq] at hfits
    exact hfits.length_le find?_source_withEdit
  · rw [heq, fits_withCommit_iff find?_source_withEdit] at hfits
    exact hfits.length_le find?_source_withEdit

theorem Marked.noteEdit_of_error (h : workspace.Marked) (hfits : workspace.Fits)
    (hfits' : (workspace.noteEdit source edit).2.Fits) {failure : Failure}
    (hfailed : (workspace.noteEdit source edit).1 = .error failure) :
    (workspace.noteEdit source edit).2 = workspace := by
  rcases workspace.noteEdit_cases source edit with
    ⟨failure', heq⟩ | ⟨document, edited, hopen, hcopy, happly, -⟩
  · rw [heq]
  · have hedited : edited.length ≤ Offset.limit := hfits'.edited_length_le hopen hcopy happly
    rw [(h.noteEdit_of_apply hopen hcopy happly (hfits.length_le hopen) hedited).1] at hfailed
    cases hfailed

/-- With texts within the limit, every failed call hands back the workspace that it was given. -/
theorem Marked.step_of_failed (h : workspace.Marked) (hfits : workspace.Fits)
    (hfits' : (workspace.step call).2.Fits) {failure : Failure}
    (hfailed : (workspace.step call).1 = .failed failure) :
    (workspace.step call).2 = workspace := by
  cases call with
  | openDocument path text => cases hfailed
  | closeDocument id => cases hfailed
  | noteEdit source edit =>
      exact h.noteEdit_of_error hfits hfits' (Reply.ofAnswer_eq_failed (by simp) hfailed)
  | edit id span text =>
      rcases edit_error_cases (Reply.ofAnswer_eq_failed (by simp) hfailed) with
        hsame | ⟨edit, hnoted, heq⟩
      · exact hsame
      · exact heq.trans (h.noteEdit_of_error hfits (heq ▸ hfits') hnoted)
  | commit source => exact commit_of_error (Reply.ofAnswer_eq_failed (by simp) hfailed)
  | start source span replacement =>
      exact start_of_error (Reply.ofAnswer_eq_failed (by simp) hfailed)
  | startAt source caret => exact startAt_of_error (Reply.ofAnswer_eq_failed (by simp) hfailed)
  | dispose handle => cases hfailed
  | disposeAll => cases hfailed
  | onDocuments call => cases hfailed

/-- **A failed call changes nothing.**  In every workspace, a call that is refused, or that finds
nothing to close or to dispose of, leaves the whole workspace as it was.  In every state that calls
of the workspace reach with texts within the limit, under any policy, this holds of calls that break
off as well.  An edit that its document accepts, reported or made by a span, is never among them:
the reply accepts it, whether or not the policy commits it at once, and the text is edited. -/
theorem step_unchanged_of_failed :
    (∀ (workspace : Workspace) (call : Call), (workspace.step call).1.isRefusal = true →
      (workspace.step call).2 = workspace) ∧
    ∀ (config : Config) (policy : CommitPolicy) (calls : List Call),
      (∀ call ∈ calls, call.isOwn = true) →
      let workspace := (initial config policy).after calls
      (∀ call failure, (initial config policy).FitsThrough (calls ++ [call]) →
        (workspace.step call).1 = .failed failure → (workspace.step call).2 = workspace) ∧
      ((initial config policy).FitsThrough calls → ∀ source document,
        workspace.documents.find? source = some document → document.copyOf = none →
        (∀ edit edited, document.apply edit = .ok edited → edited.length ≤ Offset.limit →
          (workspace.step (.noteEdit source edit)).1 = .noted ∧
            (workspace.step (.noteEdit source edit)).2.text? source = some edited.text) ∧
        ∀ span parts text, document.cut span = .ok parts →
          (parts.replace text).utf8ByteSize ≤ Offset.limit →
          (workspace.step (.edit source span text)).1 =
              .edited ⟨span.start, parts.inside, text⟩ ∧
            (workspace.step (.edit source span text)).2.text? source =
              some (parts.replace text)) := by
  refine ⟨fun workspace call hrefused => step_of_isRefusal hrefused, ?_⟩
  intro config policy calls hown workspace
  have hmarked : (initial config policy).FitsThrough calls → workspace.Marked := by
    intro hfits
    exact kept_marked.after (coherent_initial config policy) hown hfits
      (marked_initial config policy)
  constructor
  · intro call failure hfits hfailed
    obtain ⟨hbefore, hcall⟩ := fitsThrough_append.1 hfits
    exact (hmarked hbefore).step_of_failed hcall.1 hcall.2 hfailed
  · intro hfits source document hopen hcopy
    have hlength : document.length ≤ Offset.limit := hfits.fits_after.length_le hopen
    constructor
    · intro edit edited happly hedited
      obtain ⟨hok, htext⟩ :=
        (hmarked hfits).noteEdit_of_apply hopen hcopy happly hlength hedited
      refine ⟨?_, htext⟩
      simp only [step, hok, Reply.ofAnswer]
    · intro span parts text hcut hedited
      obtain ⟨hok, htext⟩ := (hmarked hfits).edit_of_cut hopen hcopy hcut hlength hedited
      refine ⟨?_, htext⟩
      simp only [step, hok, Reply.ofAnswer]

/-- With a commit after every edit: an edit whose text is not there, one that starts at the largest
offset, a start beyond the end and two calls without an object leave the workspace alone, and an
edit that fits is accepted. -/
theorem step_unchanged_with_commit_on_edit :
    let calls : List Call := [.openDocument "/a" "ab", .start ⟨0⟩ ⟨1, 1, Nat.le_refl 1⟩ "X",
      .noteEdit ⟨0⟩ ⟨0, "", "é"⟩]
    let workspace := (initial .default .everyEdit).after calls
    (∀ call ∈ calls, call.isOwn = true) ∧
      (∀ call ∈ ([.noteEdit ⟨0⟩ ⟨0, "q", ""⟩, .start ⟨0⟩ ⟨4, 5, Nat.le_succ 4⟩ "Y",
          .closeDocument ⟨7⟩, .dispose ⟨⟨1⟩, ⟨5⟩⟩] : List Call),
        (workspace.step call).1.isRefusal = true ∧ (workspace.step call).2 = workspace) ∧
      (workspace.step (.noteEdit ⟨0⟩ ⟨Offset.limit, "q", ""⟩)).1 = .failed (.broken .overflow) ∧
      (workspace.step (.noteEdit ⟨0⟩ ⟨Offset.limit, "q", ""⟩)).2 = workspace ∧
      (workspace.step (.edit ⟨0⟩ ⟨0, 2, Nat.zero_le 2⟩ "zz")).1 = .edited ⟨0, "é", "zz"⟩ := by
  intro calls workspace
  have hown : ∀ call ∈ calls, call.isOwn = true := by decide
  have hfits : (initial .default .everyEdit).FitsThrough calls := by decide
  have hfits' : (initial .default .everyEdit).FitsThrough
      (calls ++ [.noteEdit ⟨0⟩ ⟨Offset.limit, "q", ""⟩]) := by decide
  obtain ⟨hrefused, hreached⟩ := step_unchanged_of_failed
  obtain ⟨hbroken, haccepted⟩ := hreached .default .everyEdit calls hown
  have hoverflow : (workspace.step (.noteEdit ⟨0⟩ ⟨Offset.limit, "q", ""⟩)).1 =
      .failed (.broken .overflow) := by decide
  refine ⟨hown, ?_, hoverflow, hbroken _ _ hfits' hoverflow, ?_⟩
  · intro call hcall
    have hrefusal : (workspace.step call).1.isRefusal = true := by
      revert call
      decide
    exact ⟨hrefusal, hrefused workspace call hrefusal⟩
  · have hopen : workspace.documents.find? ⟨0⟩ =
        some ⟨⟨0⟩, some "/a", "éab", ⟨1⟩, ⟨1⟩, none⟩ := by decide
    have hcut : Document.cut ⟨⟨0⟩, some "/a", "éab", ⟨1⟩, ⟨1⟩, none⟩ ⟨0, 2, Nat.zero_le 2⟩ =
        .ok ⟨"", "é", "ab"⟩ :=
      Document.cut_eq_ok_iff.2 (Text.cut_eq_ok_iff.2 (by decide))
    exact ((haccepted hfits ⟨0⟩ _ hopen rfl).2 _ _ "zz" hcut (by decide)).1

end Retrace.Workspace
