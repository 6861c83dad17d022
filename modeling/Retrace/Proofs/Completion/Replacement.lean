import Mathlib.Control.Monad.Basic
import Retrace.Proofs.Completion.Failure
import Retrace.Proofs.Document.Replacement

/-!
# Three ways to edit a document

A span of a document is replaced by the document itself, or through the workspace, which cuts out
the text of the span and reports the edit that this is.  The report is checked once more against the
same text and cannot fail there (`edit_of_replace`).  Between the check and the answer the named
offsets of sessions are carried along, which only a workspace could spoil whose documents were
rewritten past it: in states that calls of the workspace reach, the answer is that of the document
(`edit_paths_agree`).
-/

namespace Retrace.Workspace

open Text (isBoundary)

variable {workspace : Workspace} {id source : DocumentId} {span : Span} {text : String}
  {document edited : Document} {edit : Edit} {calls : List Call}

/-- After an edit that its document accepts, the document is the edited one, committed or not. -/
theorem exists_changed (hopen : workspace.documents.find? source = some document)
    (hcopy : document.copyOf = none) (happly : document.apply edit = .ok edited) :
    ∃ changed, (workspace.noteEdit source edit).2.documents.find? source = some changed ∧
      changed.text = edited.text ∧ changed.modified = edited.modified := by
  rcases noteEdit_of_apply hopen hcopy happly with ⟨fault, -, heq⟩ | ⟨-, heq⟩ | ⟨-, heq⟩
  · rw [heq]
    exact ⟨edited, find?_source_withEdit, rfl, rfl⟩
  · rw [heq]
    exact ⟨edited, find?_source_withEdit, rfl, rfl⟩
  · rw [heq, find?_documents_withCommit, if_pos rfl]
    exact ⟨edited.commit, rfl, rfl, rfl⟩

/-- What the document refuses to replace, the workspace refuses for the same reason. -/
theorem edit_of_replace_error {refusal : Refusal}
    (hopen : workspace.documents.find? id = some document)
    (h : document.replace span text = .error refusal) :
    workspace.edit id span text = workspace.refuse refusal := by
  rcases hcut : document.cut span with found | parts
  · rw [Document.replace_of_cut_error hcut] at h
    cases h
    simp only [Workspace.edit, Store.get, hopen, hcut]
  · rw [Document.replace_of_cut hcut] at h
    cases h

/-- What the document replaces, the workspace replaces as well.  It can only break off afterwards,
when named offsets are carried over the edit. -/
theorem edit_of_replace (hopen : workspace.documents.find? id = some document)
    (hcopy : document.copyOf = none) (hfits : document.length ≤ Offset.limit)
    (h : document.replace span text = .ok (edit, edited)) :
    ((workspace.edit id span text).1 = .ok edit ∨
      ∃ fault, (workspace.sessions.sweep (Session.carry id edit)).1 = .error fault ∧
        (workspace.edit id span text).1 = .error (.broken fault)) ∧
    ∃ changed, (workspace.edit id span text).2.documents.find? id = some changed ∧
      changed.text = edited.text ∧ changed.modified = edited.modified := by
  have happly := Document.apply_of_replace hfits h
  obtain ⟨parts, hcut, rfl, -⟩ := Document.replace_eq_ok_iff.1 h
  rw [edit_of_cut hopen hcut text]
  refine ⟨?_, exists_changed hopen hcopy happly⟩
  rcases noteEdit_of_apply hopen hcopy happly with ⟨fault, hfault, heq⟩ | ⟨-, heq⟩ | ⟨-, heq⟩
  · rw [heq]
    exact Or.inr ⟨fault, hfault, rfl⟩
  · rw [heq]
    exact Or.inl rfl
  · rw [heq]
    exact Or.inl rfl

/-- Replacing a span through the workspace is never refused because of the text that is there. -/
theorem edit_ne_inconsistentEdit {other : DocumentId} {offset : Nat} {expected found : String}
    (hopen : workspace.documents.find? id = some document) (hcopy : document.copyOf = none)
    (hfits : document.length ≤ Offset.limit) :
    (workspace.edit id span text).1 ≠
      .error (.refused (.inconsistentEdit other offset expected found)) := by
  intro hedit
  rcases h : document.replace span text with refusal | ⟨edit, edited⟩
  · rw [edit_of_replace_error hopen h] at hedit
    cases hedit
    rcases hcut : document.cut span with refusal | parts
    · rw [Document.replace_of_cut_error hcut] at h
      cases h
      exact Document.cut_ne_inconsistentEdit hcut
    · rw [Document.replace_of_cut hcut] at h
      cases h
  · rcases (edit_of_replace hopen hcopy hfits h).1 with hok | ⟨fault, -, hbroken⟩
    · rw [hok] at hedit
      cases hedit
    · rw [hbroken] at hedit
      cases hedit

/-- **The three ways to edit a document agree.**

A document within the limit replaces a span exactly if the span stops inside the text and both its
ends are at boundaries.  A stop behind the end is named first, and of two ends inside characters the
start.  What is replaced is the piece of the text that fits the span.  The document then accepts the
edit that it says this was, and comes out the same.

The other way round, an edit that a document accepts is what the replacement of its span is said to
be.  It is inconsistent exactly if its span fits a piece of the text, and that is another text than
the edit removes.

The workspace, after any calls on it or past it, gives the document's answer for an open document
that is no copy.  It refuses a span for the same reason and stays as it was.  If the document
replaces the span, then the workspace edits the document to the same text and the same stamp, and
answers with the same edit.  Only a named offset that leaves its range can take this answer away,
and after calls of the workspace alone none does.  No span is refused for the text that is there. -/
theorem edit_paths_agree (config : Config) (policy : CommitPolicy)
    (hfits : (initial config policy).FitsThrough calls) :
    (∀ (document : Document) (span : Span) (text : String), document.length ≤ Offset.limit →
      ((∃ made, document.replace span text = .ok made) ↔
        span.stop ≤ document.length ∧ isBoundary document.text span.start = true ∧
          isBoundary document.text span.stop = true) ∧
      (document.length < span.stop →
        document.replace span text = .error (.outOfBounds document.id span document.length)) ∧
      (span.stop ≤ document.length → isBoundary document.text span.start = false →
        document.replace span text = .error (.notCharBoundary document.id span.start)) ∧
      (span.stop ≤ document.length → isBoundary document.text span.start = true →
        isBoundary document.text span.stop = false →
        document.replace span text = .error (.notCharBoundary document.id span.stop)) ∧
      ∀ edit edited, document.replace span text = .ok (edit, edited) →
        document.apply edit = .ok edited ∧
        ∃ before inside after, document.text = before ++ inside ++ after ∧
          before.utf8ByteSize = span.start ∧ (before ++ inside).utf8ByteSize = span.stop ∧
          edit = ⟨span.start, inside, text⟩ ∧
          edited = document.setText (before ++ text ++ after)) ∧
    (∀ (document : Document) (edit : Edit),
      (∀ edited, document.apply edit = .ok edited → ∃ span, edit.removedSpan = .ok span ∧
        document.replace span edit.inserted = .ok (edit, edited)) ∧
      ∀ id offset expected found,
        document.apply edit = .error (.refused (.inconsistentEdit id offset expected found)) ↔
          (id = document.id ∧ offset = edit.offset ∧ expected = edit.removed) ∧
            ∃ span before after, edit.removedSpan = .ok span ∧
              document.text = before ++ found ++ after ∧ before.utf8ByteSize = span.start ∧
              (before ++ found).utf8ByteSize = span.stop ∧ found ≠ edit.removed) ∧
    let workspace := (initial config policy).after calls
    ∀ id document, workspace.documents.find? id = some document → document.copyOf = none →
      ∀ span text,
        (∀ refusal, document.replace span text = .error refusal →
          workspace.edit id span text = (.error (.refused refusal), workspace)) ∧
        (∀ edit edited, document.replace span text = .ok (edit, edited) →
          ((workspace.edit id span text).1 = .ok edit ∨
            ∃ fault, (workspace.sessions.sweep (Session.carry id edit)).1 = .error fault ∧
              (workspace.edit id span text).1 = .error (.broken fault)) ∧
          ((∀ call ∈ calls, call.isOwn = true) → edited.length ≤ Offset.limit →
            (workspace.edit id span text).1 = .ok edit) ∧
          ∃ changed, (workspace.edit id span text).2.documents.find? id = some changed ∧
            changed.text = edited.text ∧ changed.modified = edited.modified) ∧
        ∀ other offset expected found, (workspace.edit id span text).1 ≠
          .error (.refused (.inconsistentEdit other offset expected found)) := by
  refine ⟨?_, ?_, ?_⟩
  · intro document span text hlength
    refine ⟨Document.exists_replace_iff, ?_, ?_, ?_, ?_⟩
    · intro hbeyond
      exact Document.replace_of_cut_error (Document.cut_of_beyond hbeyond) text
    · intro hle hstart
      exact Document.replace_of_cut_error (Document.cut_of_start_inside hle hstart) text
    · intro hle hstart hstop
      exact Document.replace_of_cut_error (Document.cut_of_stop_inside hle hstart hstop) text
    · intro edit edited hreplace
      obtain ⟨parts, hcut, hedit, hedited⟩ := Document.replace_eq_ok_iff.1 hreplace
      obtain ⟨htext, hbefore, hinside⟩ := Document.cut_eq_ok_iff_append.1 hcut
      refine ⟨Document.apply_of_replace hlength hreplace, ?_⟩
      exact ⟨parts.before, parts.inside, parts.after, htext, hbefore, hinside, hedit, hedited⟩
  · intro document edit
    refine ⟨fun edited happly => Document.replace_of_apply happly, ?_⟩
    intro id offset expected found
    exact Document.apply_eq_inconsistentEdit_iff
  · intro workspace id document hopen hcopy span text
    have hlength : document.length ≤ Offset.limit := hfits.fits_after.length_le hopen
    refine ⟨fun refusal hreplace => edit_of_replace_error hopen hreplace, ?_, ?_⟩
    · intro edit edited hreplace
      obtain ⟨hanswer, hchanged⟩ := edit_of_replace hopen hcopy hlength hreplace
      refine ⟨hanswer, ?_, hchanged⟩
      intro hown hedited
      have hmarked : workspace.Marked :=
        kept_marked.after (coherent_initial config policy) hown hfits
          (marked_initial config policy)
      obtain ⟨parts, hcut, rfl, rfl⟩ := Document.replace_eq_ok_iff.1 hreplace
      exact (hmarked.edit_of_cut hopen hcopy hcut hlength hedited).1
    · intro other offset expected found
      exact edit_ne_inconsistentEdit hopen hcopy hlength

/-- With a commit after every edit, on a text with two characters of two bytes.  A span with both
ends inside them is refused by the document and by the workspace, and names its start.  A span with
a character of two bytes in it is replaced by both, and an edit with another text of the same width
at this place is inconsistent. -/
theorem edit_paths_agree_between_wide_characters :
    let calls : List Call := [.openDocument "/a" "aé cd", .start ⟨0⟩ ⟨4, 5, Nat.le_succ 4⟩ "X",
      .noteEdit ⟨0⟩ ⟨0, "", "é"⟩]
    let workspace := (initial .default .everyEdit).after calls
    let document : Document := ⟨⟨0⟩, some "/a", "éaé cd", ⟨1⟩, ⟨1⟩, none⟩
    let edited : Document := ⟨⟨0⟩, some "/a", "ézz\n cd", ⟨2⟩, ⟨1⟩, none⟩
    (initial .default .everyEdit).FitsThrough calls ∧ (∀ call ∈ calls, call.isOwn = true) ∧
      workspace.documents.find? ⟨0⟩ = some document ∧
      document.replace ⟨1, 4, by decide⟩ "zz" = .error (.notCharBoundary ⟨0⟩ 1) ∧
      workspace.edit ⟨0⟩ ⟨1, 4, by decide⟩ "zz" =
        (.error (.refused (.notCharBoundary ⟨0⟩ 1)), workspace) ∧
      document.replace ⟨2, 5, by decide⟩ "zz\n" = .ok (⟨2, "aé", "zz\n"⟩, edited) ∧
      document.apply ⟨2, "aé", "zz\n"⟩ = .ok edited ∧
      (workspace.edit ⟨0⟩ ⟨2, 5, by decide⟩ "zz\n").1 = .ok ⟨2, "aé", "zz\n"⟩ ∧
      (∃ changed, (workspace.edit ⟨0⟩ ⟨2, 5, by decide⟩ "zz\n").2.documents.find? ⟨0⟩ =
        some changed ∧ changed.text = "ézz\n cd" ∧ changed.modified = ⟨2⟩) ∧
      document.apply ⟨2, "éa", ""⟩ =
        .error (.refused (.inconsistentEdit ⟨0⟩ 2 "éa" "aé")) := by
  intro calls workspace document edited
  have hfits : (initial .default .everyEdit).FitsThrough calls := by decide
  have hown : ∀ call ∈ calls, call.isOwn = true := by decide
  have hopen : workspace.documents.find? ⟨0⟩ = some document := by decide
  have hlength : document.length ≤ Offset.limit := by decide
  have hreplace : document.replace ⟨2, 5, by decide⟩ "zz\n" = .ok (⟨2, "aé", "zz\n"⟩, edited) := by
    decide
  obtain ⟨hspans, hedits, hworkspace⟩ := edit_paths_agree .default .everyEdit hfits
  obtain ⟨hrefused, hreplaced, -⟩ := hworkspace ⟨0⟩ document hopen rfl ⟨1, 4, by decide⟩ "zz"
  obtain ⟨-, hmade, -⟩ := hworkspace ⟨0⟩ document hopen rfl ⟨2, 5, by decide⟩ "zz\n"
  obtain ⟨-, hok, hchanged⟩ := hmade _ _ hreplace
  have hinside : document.replace ⟨1, 4, by decide⟩ "zz" = .error (.notCharBoundary ⟨0⟩ 1) :=
    (hspans document ⟨1, 4, by decide⟩ "zz" hlength).2.2.1 (by decide) (by decide)
  refine ⟨hfits, hown, hopen, hinside, hrefused _ hinside, hreplace, ?_, ?_, hchanged, ?_⟩
  · exact ((hspans document ⟨2, 5, by decide⟩ "zz\n" hlength).2.2.2.2 _ _ hreplace).1
  · exact hok hown (by decide)
  · apply ((hedits document ⟨2, "éa", ""⟩).2 ⟨0⟩ 2 "éa" "aé").2
    exact ⟨⟨rfl, rfl, rfl⟩, ⟨2, 5, by decide⟩, "é", " cd", rfl, by decide, by decide, by decide,
      by decide⟩

end Retrace.Workspace
