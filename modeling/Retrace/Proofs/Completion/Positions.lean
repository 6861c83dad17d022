import Retrace.Proofs.Completion.Frame
import Retrace.Proofs.Document.History
import Retrace.Proofs.Edit.Lines

/-!
# Positions before the first merge

As long as nothing is merged, the log of a tracer holds the edit that made the copy and nothing
else.  So the text whose lines the session keeps is the one that this edit turns into the text of
the copy, and that is the source as it was at the start (`exists_frame_of_unmerged`).  Commits that
find nothing staged take the lines over anew, and edits that wait are undone before the lines are
taken, so neither of them matters.

A position of the copy is then answered from three things that are fixed at the start: the text of
the copy, the edit, and the text of the source.  Up to the replaced span a position is its own
answer, and on a line behind the replacement it keeps its column (`retracePosition_before_merge`).
-/

namespace Retrace.Workspace

open Text (lineFeeds)

variable {started : Workspace} {source : DocumentId} {span : Span} {replacement : String}
  {completion : Completion} {document : Document} {tracer : Tracer} {handle : Handle}
  {calls earlier later : List Call}

/-- The log of a live tracer leads from the text whose lines its session keeps to the text of the
copy. -/
theorem exists_frame_through {config : Config} {policy : CommitPolicy}
    (hown : ∀ call ∈ calls, call.isOwn = true)
    (hfits : (initial config policy).FitsThrough calls)
    (hlive : ((initial config policy).after calls).tracer? handle = some tracer) :
    ∃ copied session text,
      ((initial config policy).after calls).documents.find? handle.copy = some copied ∧
        ((initial config policy).after calls).sessions.find? handle.copy = some session ∧
        session.frame = .ofText text ∧ TurnsThrough tracer.log.entries text copied.text := by
  have hinitial := coherent_initial config policy
  have hcoherent := hinitial.after hown
  have hexplained := kept_explained.after hinitial hown hfits (explained_initial config policy)
  have hframed := kept_framed.after hinitial hown hfits (framed_initial config policy)
  obtain ⟨hactive, -⟩ := hcoherent.handle_eq hlive
  obtain ⟨current, copied, session, merged, hcurrent, hcopied, hsession, hmerged, hframe⟩ :=
    hframed.exists_frame hcoherent hlive
  obtain ⟨current', copied', merged', hcurrent', hcopied', hmerged', hthrough⟩ :=
    hexplained.merged hactive
  -- both speak of the same documents
  cases hcurrent.symm.trans hcurrent'
  cases hcopied.symm.trans hcopied'
  cases hmerged.symm.trans hmerged'
  exact ⟨copied, session, merged.text, hcopied, hsession, hframe, hthrough⟩

/-- As long as nothing is merged, a session keeps the lines that the source had at the start, and
the edit that made the copy still relates that text to the text of the copy. -/
theorem exists_frame_of_unmerged {config : Config} {policy : CommitPolicy}
    (hown : ∀ call ∈ earlier ++ later, call.isOwn = true)
    (hfits : (initial config policy).FitsThrough
      (earlier ++ .start source span replacement :: later))
    (hopen : ((initial config policy).after earlier).documents.find? source = some document)
    (hstart : ((initial config policy).after earlier).start source span replacement =
      (.ok completion, started))
    (hlive : (started.after later).tracer? completion.handle = some tracer)
    (hsize : tracer.log.size = 1) :
    ∃ parts copied session, document.cut span = .ok parts ∧
      tracer.log.entries = [⟨span.start, parts.inside, replacement⟩] ∧
      (started.after later).documents.find? completion.handle.copy = some copied ∧
      (started.after later).sessions.find? completion.handle.copy = some session ∧
      session.frame = document.lines ∧
      Edit.Turns ⟨span.start, parts.inside, replacement⟩ document.text copied.text ∧
      document.length ≤ Offset.limit ∧ copied.length ≤ Offset.limit := by
  rw [List.forall_mem_append] at hown
  have h := (coherent_initial config policy).after hown.1
  -- the calls before the start, the start and the calls after it are one run
  have hownRun : ∀ call ∈ earlier ++ .start source span replacement :: later,
      call.isOwn = true :=
    List.forall_mem_append.2 ⟨hown.1, List.forall_mem_cons.2 ⟨rfl, hown.2⟩⟩
  have hrun : (initial config policy).after (earlier ++ .start source span replacement :: later) =
      started.after later := by
    rw [after_append, after_cons]
    exact congrArg (fun outcome : Outcome Completion => outcome.2.after later) hstart
  obtain ⟨parts, copied, hcut, hentries, hcopied, htext, -⟩ :=
    h.entries_of_unmerged hown.2 hopen hstart hlive hsize
  obtain ⟨first, hfirst, -, hhandle, -⟩ := h.start_eq_ok hopen hcut hstart
  have hcopyOf : completion.handle.copy = completion.copy := by
    rw [hhandle, hfirst]
    rfl
  have hturns : Edit.Turns ⟨span.start, parts.inside, replacement⟩ document.text copied.text := by
    rw [htext]
    exact Document.turns_of_cut hcut
  rw [← hcopyOf] at hcopied
  rw [← hrun] at hlive hcopied ⊢
  obtain ⟨copied', session, text, hcopied', hsession, hframe, hthrough⟩ :=
    exists_frame_through hownRun hfits hlive
  cases hcopied.symm.trans hcopied'
  rw [hentries] at hthrough
  obtain ⟨_, rfl, -, hturns'⟩ := hthrough
  -- the same edit turns both texts into that of the copy
  have hsame : text = document.text := hturns'.before_eq hturns
  refine ⟨parts, copied, session, hcut, hentries, hcopied, hsession, ?_, hturns, ?_, ?_⟩
  · rw [hframe, hsame]
    rfl
  · exact (fitsThrough_append.1 hfits).1.fits_after.length_le hopen
  · exact hfits.fits_after.length_le hcopied

/-- **Before the first merge, positions away from the replacement keep their column.**  A completion
is started in any state that is reached by calls of the workspace, and more calls follow.  If its
handle is still live and its log still holds one entry, positions of the copy are answered as
follows.  One that is not behind the start of the span is its own answer.  One on a line behind that
on which the replacement ends has an answer in the same column, and the line is moved by the line
feeds that were removed and those that replace them.  Any other position of the copy has an answer
exactly if its offset has one, and the answer is where this offset is in the text that the source
had at the start. -/
theorem retracePosition_before_merge (config : Config) (policy : CommitPolicy)
    (hown : ∀ call ∈ earlier ++ later, call.isOwn = true)
    (hfits : (initial config policy).FitsThrough
      (earlier ++ .start source span replacement :: later))
    (hopen : ((initial config policy).after earlier).documents.find? source = some document)
    (hstart : ((initial config policy).after earlier).start source span replacement =
      (.ok completion, started))
    (hlive : (started.after later).tracer? completion.handle = some tracer)
    (hsize : tracer.log.size = 1) :
    let workspace := started.after later
    ∃ parts copied edge, document.cut span = .ok parts ∧
      workspace.documents.find? completion.handle.copy = some copied ∧
      copied.lines.position? (span.start + replacement.utf8ByteSize) = some edge ∧
      ∀ position, ∀ offset : Nat, copied.lines.offset? position = some offset →
        (offset ≤ span.start →
          workspace.retracePosition completion.handle position = .ok (some position)) ∧
        (edge.line < position.line →
          lineFeeds replacement ≤ position.line ∧
            workspace.retracePosition completion.handle position =
              .ok (some ⟨position.line - lineFeeds replacement + lineFeeds parts.inside,
                position.column⟩)) ∧
        ∃ answer, workspace.retrace completion.handle offset = .ok answer ∧
          (answer = none →
            workspace.retracePosition completion.handle position = .ok none) ∧
          ∀ reached : Nat, answer = some reached → ∃ place,
            document.lines.position? reached = some place ∧
              workspace.retracePosition completion.handle position = .ok (some place) := by
  intro workspace
  obtain ⟨parts, copied, session, hcut, hentries, hcopied, hsession, hframe, hturns, hbefore,
    hafter⟩ := exists_frame_of_unmerged hown hfits hopen hstart hlive hsize
  obtain ⟨edge, hedge⟩ : ∃ edge,
      copied.lines.position? (span.start + replacement.utf8ByteSize) = some edge :=
    Option.isSome_iff_exists.1 (Lines.isSome_position?_iff.2 hturns.inserted_le)
  refine ⟨parts, copied, edge, hcut, hcopied, hedge, ?_⟩
  intro position offset hoffset
  have hposition : copied.lines.position? offset = some position :=
    ((Lines.sound_ofText copied.text).offset?_eq_some_iff_position? hafter).1 hoffset
  have hinside : offset ≤ copied.length := Document.le_of_position?_eq_some hposition
  have hretrace : workspace.retrace completion.handle offset =
      Edit.retrace ⟨span.start, parts.inside, replacement⟩ offset := by
    simp only [workspace, retrace, hlive, Tracer.retrace, Log.retrace, hentries, retraceThrough]
  have hanswer : workspace.retracePosition completion.handle position =
      (Edit.retrace ⟨span.start, parts.inside, replacement⟩ offset).map
        fun answer => answer.bind document.lines.position? := by
    rcases retracePosition_of_live hlive hsession hcopied hframe position with
      ⟨hnone, -⟩ | ⟨found, hfound, heq⟩
    · rw [hoffset] at hnone
      cases hnone
    · rw [hoffset, Option.some.injEq] at hfound
      subst hfound
      rw [← hretrace]
      exact heq
  refine ⟨?_, ?_, ?_⟩
  · intro hle
    obtain ⟨hstays, -⟩ := hturns.retrace_front hafter hle
    have hplace : document.lines.position? offset = some position :=
      (hturns.position?_front hle).symm.trans hposition
    rw [hanswer, hstays]
    exact congrArg Except.ok hplace
  · intro hline
    obtain ⟨hbehind, hfeeds, hplace⟩ := hturns.position?_behind hedge hposition hline
    refine ⟨hfeeds, ?_⟩
    rw [hanswer, hturns.retrace_behind hbefore hafter hbehind hinside]
    exact congrArg Except.ok hplace
  · obtain ⟨answer, hok, hreached⟩ := hturns.retrace_inside hbefore hafter hinside
    refine ⟨answer, hretrace.trans hok, ?_, ?_⟩
    · rintro rfl
      rw [hanswer, hok]
      rfl
    · rintro reached rfl
      obtain ⟨place, hplace⟩ : ∃ place, document.lines.position? reached = some place :=
        Option.isSome_iff_exists.1 (Lines.isSome_position?_iff.2 (hreached reached rfl).1)
      refine ⟨place, hplace, ?_⟩
      rw [hanswer, hok]
      exact congrArg Except.ok hplace

/-- Two lines are replaced by three, the last of which is empty, and two lines in front of them are
staged. The last place of the line behind the replacement is one line higher in the source, a place
in front of the replacement stays, and one inside it has no answer. -/
theorem retracePosition_around_replaced_lines :
    let earlier : List Call := [.openDocument "/a" "ab\ncd\nef\ngh"]
    let later : List Call := [.commit ⟨0⟩, .edit ⟨0⟩ ⟨0, 0, Nat.le_refl 0⟩ "\n\n",
      .noteEdit ⟨0⟩ ⟨5, "c", ""⟩]
    let workspace := (initial .default .stampAdvanced).after earlier
    let completion : Completion := ⟨⟨0⟩, ⟨1⟩, ⟨⟨1⟩, ⟨1⟩⟩, "ab\ncX\nYé\nf\ngh"⟩
    let started := (workspace.start ⟨0⟩ ⟨4, 7, by decide⟩ "X\nYé\n").2
    let document : Document := .fresh ⟨0⟩ (some "/a") "ab\ncd\nef\ngh" none
    let tracer : Tracer := ⟨⟨1⟩, ⟨1⟩, ⟨0⟩, ⟨⟨4, "d\ne", "X\nYé\n"⟩, []⟩,
      [⟨0, "\n\n", ""⟩, ⟨5, "", "c"⟩], ⟨0⟩⟩
    (∀ call ∈ earlier ++ later, call.isOwn = true) ∧
      (initial .default .stampAdvanced).FitsThrough
        (earlier ++ .start ⟨0⟩ ⟨4, 7, by decide⟩ "X\nYé\n" :: later) ∧
      workspace.documents.find? ⟨0⟩ = some document ∧
      workspace.start ⟨0⟩ ⟨4, 7, by decide⟩ "X\nYé\n" = (.ok completion, started) ∧
      (started.after later).tracer? completion.handle = some tracer ∧ tracer.log.size = 1 ∧
      (started.after later).text? ⟨0⟩ = some "\n\nab\nd\nef\ngh" ∧
      (started.after later).retracePosition completion.handle ⟨4, 2⟩ = .ok (some ⟨3, 2⟩) ∧
      (started.after later).retracePosition completion.handle ⟨1, 1⟩ = .ok (some ⟨1, 1⟩) ∧
      (started.after later).retracePosition completion.handle ⟨2, 1⟩ = .ok none := by
  intro earlier later workspace completion started document tracer
  have hown : ∀ call ∈ earlier ++ later, call.isOwn = true := by decide
  have hfits : (initial .default .stampAdvanced).FitsThrough
      (earlier ++ .start ⟨0⟩ ⟨4, 7, by decide⟩ "X\nYé\n" :: later) := by decide
  have hopen : workspace.documents.find? ⟨0⟩ = some document := by decide
  have hstart : workspace.start ⟨0⟩ ⟨4, 7, by decide⟩ "X\nYé\n" = (.ok completion, started) := rfl
  have hlive : (started.after later).tracer? completion.handle = some tracer := by decide
  have hsize : tracer.log.size = 1 := rfl
  obtain ⟨parts, copied, edge, hcut, hcopied, hedge, hpositions⟩ :=
    retracePosition_before_merge .default .stampAdvanced hown hfits hopen hstart hlive hsize
  have hremoved : parts = ⟨"ab\nc", "d\ne", "f\ngh"⟩ := by
    have hparts : document.cut ⟨4, 7, by decide⟩ = .ok ⟨"ab\nc", "d\ne", "f\ngh"⟩ := by decide
    exact Except.ok.inj (hcut.symm.trans hparts)
  have hlines : copied.lines = .ofText "ab\ncX\nYé\nf\ngh" := by
    have htext : (started.after later).text? ⟨1⟩ = some "ab\ncX\nYé\nf\ngh" := by decide
    rw [text?_of_open hcopied, Option.some.injEq] at htext
    exact congrArg Lines.ofText htext
  rw [hlines] at hedge hpositions
  have hend : edge = ⟨3, 0⟩ := by
    have hplace : (Lines.ofText "ab\ncX\nYé\nf\ngh").position? 10 = some ⟨3, 0⟩ := by decide
    exact Option.some.inj (hedge.symm.trans hplace)
  refine ⟨hown, hfits, hopen, hstart, hlive, hsize, by decide, ?_, ?_, ?_⟩
  · obtain ⟨-, hbehind, -⟩ := hpositions ⟨4, 2⟩ 14 rfl
    obtain ⟨-, hanswer⟩ := hbehind (by rw [hend]; decide)
    rw [hremoved] at hanswer
    exact hanswer
  · exact (hpositions ⟨1, 1⟩ 4 rfl).1 (Nat.le_refl 4)
  · obtain ⟨-, -, answer, hanswer, hnone, -⟩ := hpositions ⟨2, 1⟩ 7 rfl
    have hgap : (started.after later).retrace completion.handle 7 = .ok none := by decide
    exact hnone (Except.ok.inj (hanswer.symm.trans hgap))

end Retrace.Workspace
