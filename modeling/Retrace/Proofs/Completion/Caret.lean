import Retrace.Proofs.Completion.Range
import Retrace.Proofs.Document.Replacement
import Retrace.Proofs.Text.Identifier

/-!
# Completion at a caret

A completion at a caret replaces what is left of the identifier there.  The caret is checked first,
and after that nothing can fail: the end of the identifier is not before the caret, so the two make
a span, and it is a boundary, so this span cuts the text (`startAtRun_of_isBoundary`).  This needs a
text whose bytes can be counted in 32 bits, because so is the end of the identifier.  Which
characters continue an identifier and which text the dummy is does not matter, and neither does what
the workspace holds besides the document, because a copy can always be placed.
-/

namespace Retrace.Workspace

open Text (isBoundary runEnd LastBoundary)

variable {continues : Char → Bool} {workspace placed : Workspace} {source copy id : DocumentId}
  {document : Document} {span : Span} {parts : Text.Cut} {caret : Nat}

/-- Placing a copy closes nothing. -/
theorem Placed.exists_open {text : String} (hplaced : Placed workspace source text copy placed)
    (hopen : workspace.documents.find? id = some document) :
    ∃ later, placed.documents.find? id = some later := by
  rcases hplaced.documents with ⟨old, -, -, heq⟩ | ⟨-, -, heq⟩
  · rw [heq, Store.find?_put]
    split
    · exact ⟨_, rfl⟩
    · exact ⟨document, hopen⟩
  · rw [heq, Store.find?_add]
    split
    · exact ⟨_, rfl⟩
    · exact ⟨document, hopen⟩

/-- The handle of a new tracer to an open source has the named offsets of the new session. -/
theorem marks?_withTracer {tracer : Tracer} {session : Session}
    (hopen : workspace.documents.find? tracer.source = some document) :
    (workspace.withTracer tracer session).marks? tracer.handle = some session.marks := by
  have hfind : (workspace.withTracer tracer session).registry.find? tracer.handle = some tracer :=
    Registry.find?_eq_some_iff.2 ⟨activeFor?_withTracer.trans (if_pos rfl), rfl⟩
  have hsession : (workspace.withTracer tracer session).sessions.find? tracer.handle.copy =
      some session := sessions_withTracer.trans (if_pos rfl)
  have htracer : (workspace.withTracer tracer session).tracer? tracer.handle = some tracer := by
    rw [tracer?, hfind, Option.filter_eq_some_iff]
    exact ⟨rfl, Option.isSome_iff_exists.2 ⟨document, hopen⟩⟩
  simp only [marks?, htracer, hsession, Option.map_some]

/-- A completion on a source with a span that cuts its text: the copy has the span replaced, and the
handle has named offsets at the ends of the span. -/
theorem exists_completion (hopen : workspace.documents.find? source = some document)
    (hcopy : document.copyOf = none) (hcut : document.cut span = .ok parts) (replacement : String) :
    ∃ completion, (workspace.start source span replacement).1 = .ok completion ∧
      completion.source = source ∧ completion.text = parts.replace replacement ∧
      (workspace.start source span replacement).2.text? completion.copy = some completion.text ∧
      (workspace.start source span replacement).2.marks? completion.handle =
        some (Session.marksOf span) := by
  obtain ⟨copy, placed, hplaced, hstart⟩ := start_of_cut hopen hcopy hcut replacement
  obtain ⟨later, hlater⟩ := hplaced.exists_open hopen
  rw [hstart]
  refine ⟨_, rfl, rfl, rfl, hplaced.text?_copy, ?_⟩
  exact marks?_withTracer hlater

/-- At a boundary, a completion replaces the accepted characters from there on. -/
theorem startAtRun_of_isBoundary (hopen : workspace.documents.find? source = some document)
    (hfits : document.length ≤ Offset.limit) (hcaret : isBoundary document.text caret = true) :
    ∃ span parts, span.start = caret ∧ span.stop = runEnd continues document.text caret ∧
      document.cut span = .ok parts ∧
      workspace.startAtRun continues source caret =
        workspace.start source span workspace.config.dummyIdentifier := by
  obtain ⟨front, run, rest, htext, hlast, hend, -, -⟩ :=
    Text.exists_run continues document.text caret
  have hfront : front.utf8ByteSize = caret := hlast.eq_of_isBoundary hcaret
  have hstop : (front ++ run).utf8ByteSize = runEnd continues document.text caret :=
    (Text.wrap_size_of_prefix htext hfits).symm.trans hend.symm
  have hle : caret ≤ runEnd continues document.text caret := by
    rw [← hstop, String.utf8ByteSize_append, hfront]
    exact Nat.le_add_right _ _
  have hspan : Span.between caret (runEnd continues document.text caret) = .ok ⟨caret, _, hle⟩ :=
    dif_pos hle
  obtain ⟨checked, hchecked⟩ := Document.exists_cut_iff.2
    (show isBoundary document.text (Span.caret caret).start = true ∧
      isBoundary document.text (Span.caret caret).stop = true from ⟨hcaret, hcaret⟩)
  refine ⟨⟨caret, _, hle⟩, ⟨front, run, rest⟩, rfl, rfl, ?_, ?_⟩
  · exact Document.cut_eq_ok_iff_append.2 ⟨htext, hfront, hstop⟩
  · simp only [startAtRun, Store.get, hopen, hchecked, hspan]

/-- At a caret behind the end of the text nothing is started. -/
theorem startAtRun_of_beyond (hopen : workspace.documents.find? source = some document)
    (hbeyond : document.length < caret) :
    workspace.startAtRun continues source caret =
      workspace.refuse (.outOfBounds document.id (.caret caret) document.length) := by
  have hcut : document.cut (.caret caret) =
      .error (.outOfBounds document.id (.caret caret) document.length) :=
    Document.cut_of_beyond hbeyond
  simp only [startAtRun, Store.get, hopen, hcut]

/-- Nor is anything at a caret inside a character. -/
theorem startAtRun_of_inside (hopen : workspace.documents.find? source = some document)
    (hle : caret ≤ document.length) (hinside : isBoundary document.text caret = false) :
    workspace.startAtRun continues source caret =
      workspace.refuse (.notCharBoundary document.id caret) := by
  have hcut : document.cut (.caret caret) = .error (.notCharBoundary document.id caret) :=
    Document.cut_of_start_inside hle hinside
  simp only [startAtRun, Store.get, hopen, hcut]

/-- **Completion at a caret replaces the rest of the identifier**, whichever characters continue an
identifier.

In every text a caret, wherever it is, parts the text into three pieces.  The first ends at the last
boundary up to the caret.  All characters of the second continue an identifier.  The third is empty
or starts with a character that does not.  The end of the identifier is the end of the second piece,
counted in 32 bits.  If the text is within the limit, this is the end of the second piece itself, a
boundary inside the text, and as a caret it is its own end.

In every workspace, a completion at a boundary of an open document within the limit that is no copy
is started.  Its text has the dummy from the settings, whichever it is, in place of what is between
the caret and the end of the identifier.  This is the text of the copy, and the handle has three
named offsets, the caret twice and the end of the identifier.  A caret behind the end of the text,
or inside a character, is refused for that, and nothing changes. -/
theorem startAt_replaces_identifier (continues : Char → Bool) :
    (∀ (text : String) (caret : Nat),
      ∃ front run rest : String, text = front ++ run ++ rest ∧
        LastBoundary text caret front.utf8ByteSize ∧
        (∀ c ∈ run.toList, continues c = true) ∧
        (∀ c, rest.toList.head? = some c → continues c = false) ∧
        runEnd continues text caret = Offset.wrap (front ++ run).utf8ByteSize ∧
        (text.utf8ByteSize ≤ Offset.limit →
          runEnd continues text caret = (front ++ run).utf8ByteSize ∧
            isBoundary text (runEnd continues text caret) = true ∧
            runEnd continues text caret ≤ text.utf8ByteSize ∧
            runEnd continues text (runEnd continues text caret) = runEnd continues text caret)) ∧
    ∀ (workspace : Workspace) (source : DocumentId) (document : Document) (caret : Nat),
      workspace.documents.find? source = some document → document.copyOf = none →
      document.length ≤ Offset.limit →
        (isBoundary document.text caret = true →
          ∃ before inside after completion marks, document.text = before ++ inside ++ after ∧
            before.utf8ByteSize = caret ∧
            (before ++ inside).utf8ByteSize = runEnd continues document.text caret ∧
            (workspace.startAtRun continues source caret).1 = .ok completion ∧
            completion.source = source ∧
            completion.text = before ++ workspace.config.dummyIdentifier ++ after ∧
            (workspace.startAtRun continues source caret).2.text? completion.copy =
              some completion.text ∧
            (workspace.startAtRun continues source caret).2.marks? completion.handle =
              some marks ∧
            marks.entries = [(.start, caret), (.selectionEnd, caret),
              (.identifierEnd, runEnd continues document.text caret)]) ∧
        (document.length < caret →
          workspace.startAtRun continues source caret =
            (.error (.refused (.outOfBounds document.id (.caret caret) document.length)),
              workspace)) ∧
        (caret ≤ document.length → isBoundary document.text caret = false →
          workspace.startAtRun continues source caret =
            (.error (.refused (.notCharBoundary document.id caret)), workspace)) := by
  constructor
  · intro text caret
    obtain ⟨front, run, rest, htext, hlast, hend, hrun, hrest⟩ :=
      Text.exists_run continues text caret
    refine ⟨front, run, rest, htext, hlast, hrun, hrest, hend, ?_⟩
    intro hfits
    obtain ⟨hboundary, hagain⟩ := Text.isBoundary_runEnd continues hfits caret
    exact ⟨hend.trans (Text.wrap_size_of_prefix htext hfits), hboundary,
      Text.le_size_of_isBoundary hboundary, hagain⟩
  · intro workspace source document caret hopen hcopy hfits
    refine ⟨?_, startAtRun_of_beyond hopen, startAtRun_of_inside hopen⟩
    intro hcaret
    obtain ⟨span, parts, hstart, hstop, hcut, heq⟩ := startAtRun_of_isBoundary hopen hfits hcaret
    obtain ⟨htext, hbefore, hinside⟩ := Document.cut_eq_ok_iff_append.1 hcut
    obtain ⟨completion, hok, hsource, hplaced, hcopied, hmarks⟩ :=
      exists_completion hopen hcopy hcut workspace.config.dummyIdentifier
    rw [heq]
    refine ⟨parts.before, parts.inside, parts.after, completion, _, htext, hbefore.trans hstart,
      hinside.trans hstop, hok, hsource, hplaced, hcopied, hmarks, ?_⟩
    rw [← hstop, ← hstart]
    rfl

/-- With an empty dummy, and a caret before one of two characters of two bytes in the middle of a
word.  What is left of the word goes.  A caret inside one of these characters is refused, and so is
one behind the end. -/
theorem startAt_replaces_rest_of_word :
    let workspace := (initial ⟨"", .everyEdit⟩ .everyEdit).after [.openDocument "/a" "x größe y"]
    let document : Document := .fresh ⟨0⟩ (some "/a") "x größe y" none
    let completion : Completion := ⟨⟨0⟩, ⟨1⟩, ⟨⟨1⟩, ⟨1⟩⟩, "x gr y"⟩
    let started := (workspace.startAt ⟨0⟩ 4).2
    workspace.documents.find? ⟨0⟩ = some document ∧ document.copyOf = none ∧
      document.length ≤ Offset.limit ∧
      isBoundary document.text 4 = true ∧ (workspace.startAt ⟨0⟩ 4).1 = .ok completion ∧
      (∃ marks, started.text? ⟨1⟩ = some "x gr y" ∧
        started.marks? completion.handle = some marks ∧
        marks.entries = [(.start, 4), (.selectionEnd, 4), (.identifierEnd, 9)]) ∧
      (workspace.startAt ⟨0⟩ 5).1 = .error (.refused (.notCharBoundary ⟨0⟩ 5)) ∧
      (workspace.startAt ⟨0⟩ 12).1 = .error (.refused (.outOfBounds ⟨0⟩ (.caret 12) 11)) := by
  intro workspace document completion started
  have hopen : workspace.documents.find? ⟨0⟩ = some document := by decide
  have hlength : document.length = 11 := by decide
  have hfits : document.length ≤ Offset.limit := by decide
  have hcaret : isBoundary document.text 4 = true := by decide
  have hend : runEnd Text.continuesIdentifier document.text 4 = 9 := by decide +kernel
  have hok : (workspace.startAt ⟨0⟩ 4).1 = .ok completion := by decide +kernel
  have hcompletion :=
    (startAt_replaces_identifier Text.continuesIdentifier).2 workspace ⟨0⟩ document
  refine ⟨hopen, rfl, hfits, hcaret, hok, ?_, ?_, ?_⟩
  · obtain ⟨-, -, -, made, marks, -, -, -, hmade, -, -, hcopied, hmarks, hentries⟩ :=
      (hcompletion 4 hopen rfl hfits).1 hcaret
    cases hok.symm.trans hmade
    rw [hend] at hentries
    exact ⟨marks, hcopied, hmarks, hentries⟩
  · rw [startAt, (hcompletion 5 hopen rfl hfits).2.2 (by omega) (by decide)]
    rfl
  · rw [startAt, (hcompletion 12 hopen rfl hfits).2.1 (by omega), hlength]
    rfl

end Retrace.Workspace
