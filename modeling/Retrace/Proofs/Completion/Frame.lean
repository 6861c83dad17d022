import Retrace.Proofs.Completion.Drain
import Retrace.Proofs.Completion.Window

/-!
# The lines that positions are answered in

A session keeps the lines of a text, and the text itself is stored nowhere.  It is the text that
the log of the tracer explains: the source without the edits that are still staged (`Framed`).  An
edit of the source adds one staged edit to be undone, so that text stays what it was.  A commit
either merges nothing, and nothing changes, or it leaves nothing staged.  Then the text is the
source as it is now, and the session takes over its lines.

So a position of the copy is answered in this text (`retracePosition_eq_some_iff`): the offset that
the position stands for is taken back through the log, and the answer is where this offset is in
the lines of the text, if it is inside.
-/

namespace Retrace

namespace Document

variable {document : Document} {offset : Nat} {position : Position}

/-- An offset has no position exactly if the text does not reach that far. -/
theorem position?_eq_none_iff :
    document.lines.position? offset = none ↔ document.length < offset := by
  have hlength : document.lines.length = document.length := rfl
  unfold Lines.position?
  split
  · next hle => simpa [← hlength] using hle
  · next hlt => simpa [← hlength] using hlt

theorem le_of_position?_eq_some (h : document.lines.position? offset = some position) :
    offset ≤ document.length := by
  apply Nat.not_lt.1
  intro hlt
  rw [position?_eq_none_iff.2 hlt] at h
  cases h

end Document

namespace Workspace

variable {workspace changed : Workspace} {source copy : DocumentId} {tracer : Tracer}
  {session : Session} {handle : Handle} {moves : List Move}

/-! ### The text behind the log -/

/-- Every session has the lines of its source without the edits that are staged. -/
structure Framed (workspace : Workspace) : Prop where
  frame : ∀ {copy tracer session}, workspace.registry.activeFor? copy = some tracer →
    workspace.sessions.find? copy = some session →
      ∃ before merged, workspace.text? tracer.source = some before ∧
        TurnsThrough tracer.staged before merged ∧ session.frame = .ofText merged

theorem framed_initial (config : Config) (policy : CommitPolicy) :
    (initial config policy).Framed where
  frame hactive := by cases hactive

/-- A tracer and a session that were there before, with a source that has its text still. -/
theorem Framed.of_quiet (hframed : workspace.Framed) (h : workspace.Coherent)
    (hchange : Change workspace none changed)
    (hactive : changed.registry.activeFor? copy = some tracer)
    (hold : workspace.registry.activeFor? copy = some tracer)
    (hsession : workspace.sessions.find? copy = some session) :
    ∃ before merged, changed.text? tracer.source = some before ∧
      TurnsThrough tracer.staged before merged ∧ session.frame = .ofText merged := by
  obtain ⟨old, hsame, -, htext, -⟩ := (h.followed_change hchange hactive).quiet
  rw [hold, Option.some.injEq] at hsame
  subst hsame
  rw [htext]
  exact hframed.frame hold hsession

/-- Carrying named offsets leaves the lines of a session as they are. -/
theorem exists_frame_withEdit {edit : Edit} {edited : Document}
    (hsession : (workspace.withEdit source edit edited).sessions.find? copy = some session) :
    ∃ was, workspace.sessions.find? copy = some was ∧ session.frame = was.frame := by
  have hcarry : ∀ was : Session, (was.carry source edit).2.frame = was.frame := by
    intro was
    unfold Session.carry
    split <;> rfl
  rcases Table.find?_sweep workspace.sessions (Session.carry source edit) copy with heq | heq
  · exact ⟨session, heq.symm.trans hsession, rfl⟩
  · obtain ⟨was, hwas, rfl⟩ := Option.map_eq_some_iff.1 (heq.symm.trans hsession)
    exact ⟨was, hwas, hcarry was⟩

/-- A commit that leaves edits staged leaves the lines as they are, and one that leaves none takes
the lines of its document. -/
theorem Framed.of_commit (hframed : workspace.Framed) {document : Document}
    (hopen : workspace.documents.find? source = some document)
    (hactive : (workspace.withCommit source document).registry.activeFor? copy = some tracer)
    (hsession : (workspace.withCommit source document).sessions.find? copy = some session) :
    ∃ before merged, (workspace.withCommit source document).text? tracer.source = some before ∧
      TurnsThrough tracer.staged before merged ∧ session.frame = .ofText merged := by
  rw [find?_sessions_withCommit] at hsession
  obtain ⟨was, hwas, rfl⟩ := Option.map_eq_some_iff.1 hsession
  have hlive := hactive
  rw [activeFor?_withCommit] at hlive
  obtain ⟨old, hold, hmerged⟩ := Option.map_eq_some_iff.1 hlive
  rw [text?_withCommit hopen]
  by_cases hto : tracer.source = source ∧ tracer.staged = []
  · -- the text of the source is explained without anything staged
    refine ⟨document.text, document.text, ?_, ?_, ?_⟩
    · rw [hto.1]
      exact text?_of_open hopen
    · rw [hto.2]
      rfl
    · simp only [refreshed, hactive, if_pos hto]
      rfl
  · have hsame : old = tracer := by
      split at hmerged
      · next hsource =>
          rcases old.mergeStaged_cases document.modified workspace.policy with ⟨-, heq⟩ | ⟨-, heq⟩
          · rw [heq] at hmerged
            subst hmerged
            exact absurd ⟨hsource, rfl⟩ hto
          · rw [heq] at hmerged
            exact hmerged
      · exact hmerged
    subst hsame
    simp only [refreshed, hactive, if_neg hto]
    exact hframed.frame hold hwas

/-- Every change keeps the lines of sessions those of the text that the log explains. -/
theorem kept_framed : Kept Framed := by
  intro workspace changed event h hfits hfits' hchange hframed
  constructor
  intro copy tracer session hactive hsession
  cases hchange with
  | shrunk hshrinks =>
      exact hframed.of_quiet h (.shrunk hshrinks) hactive (hshrinks.activeFor?_eq_some hactive)
        (hshrinks.sessions_eq_some hsession)
  | opened hfree => exact hframed.of_quiet h (.opened hfree) hactive hactive hsession
  | rewritten hopen hnocopy hidle =>
      exact hframed.of_quiet h (.rewritten hopen hnocopy hidle) hactive hactive hsession
  | @edited source edit document edited hopen hnocopy happly =>
      obtain ⟨-, text, hturns, rfl⟩ := Document.apply_eq_ok_iff.1 happly
      have hafter : text.utf8ByteSize ≤ Offset.limit := hfits'.length_le find?_source_withEdit
      obtain ⟨was, hwas, hframe⟩ := exists_frame_withEdit hsession
      rw [activeFor?_withEdit] at hactive
      obtain ⟨old, hold, rfl⟩ := Option.map_eq_some_iff.1 hactive
      obtain ⟨before, merged, hbefore, hthrough, hmerged⟩ := hframed.frame hold hwas
      by_cases hsource : old.source = source
      · subst hsource
        rw [text?_of_open hopen, Option.some.injEq] at hbefore
        subst hbefore
        rw [if_pos rfl]
        refine ⟨text, merged, text?_of_open find?_source_withEdit, ?_, hframe.trans hmerged⟩
        -- the edit is undone first, and then comes what was staged before
        exact hthrough.concat (Nat.le_trans hturns.inserted_le hafter) hturns.inverse
      · rw [if_neg hsource]
        refine ⟨before, merged, ?_, hthrough, hframe.trans hmerged⟩
        rw [text?, find?_documents_withEdit, if_neg hsource]
        exact hbefore
  | committed hopen => exact hframed.of_commit hopen hactive hsession
  | @started source id span parts replacement document placed first hopen hnocopy hcut hplaced
      hfirst =>
      have hid : first.copy = id := by
        rw [hfirst]
        rfl
      have htext : ∀ {other original}, workspace.documents.find? other = some original →
          original.copyOf = none →
          (placed.withTracer first (.start source span document.lines)).text? other =
            some original.text := by
        intro other original horiginal hof
        exact text?_of_open (hplaced.find?_eq_some h horiginal hof)
      rw [activeFor?_withTracer, hid, hplaced.registry] at hactive
      rw [sessions_withTracer, hid, hplaced.sessions] at hsession
      split at hactive
      · next heq =>
          rw [if_pos heq] at hsession
          cases hactive
          cases hsession
          refine ⟨document.text, document.text, ?_, ?_, rfl⟩
          · rw [hfirst]
            exact htext hopen hnocopy
          · rw [hfirst]
            rfl
      · next hne =>
          rw [if_neg hne] at hsession
          obtain ⟨original, horiginal, hof⟩ := h.tracer_source_open hactive
          obtain ⟨before, merged, hbefore, hthrough, hmerged⟩ := hframed.frame hactive hsession
          refine ⟨before, merged, ?_, hthrough, hmerged⟩
          rw [htext horiginal hof, ← text?_of_open horiginal]
          exact hbefore

theorem Framed.withPolicy : Unread Framed := by
  intro workspace policy h
  exact ⟨h.frame⟩

/-! ### Positions -/

/-- A live handle has the lines of its source without what is staged. -/
theorem Framed.exists_frame (h : workspace.Framed) (hcoherent : workspace.Coherent)
    (hlive : workspace.tracer? handle = some tracer) :
    ∃ source copied session merged, workspace.documents.find? tracer.source = some source ∧
      workspace.documents.find? handle.copy = some copied ∧
      workspace.sessions.find? handle.copy = some session ∧
      source.applyBack tracer.staged = .ok merged ∧ session.frame = merged.lines := by
  obtain ⟨hactive, -⟩ := hcoherent.handle_eq hlive
  obtain ⟨source, copied, hsource, -, hcopied, -⟩ := hcoherent.exists_documents hactive
  obtain ⟨session, hsession, -⟩ := hcoherent.exists_session hactive
  obtain ⟨before, text, hbefore, hthrough, hframe⟩ := h.frame hactive hsession
  rw [text?_of_open hsource, Option.some.injEq] at hbefore
  subst hbefore
  obtain ⟨merged, hmerged, rfl⟩ := Document.applyBack_of_turnsThrough hthrough
  exact ⟨source, copied, session, merged, hsource, hcopied, hsession, hmerged, hframe⟩

/-- What a position of the copy of a live handle is answered with. -/
theorem retracePosition_of_live {session : Session} {copied merged : Document}
    (hlive : workspace.tracer? handle = some tracer)
    (hsession : workspace.sessions.find? handle.copy = some session)
    (hcopied : workspace.documents.find? handle.copy = some copied)
    (hframe : session.frame = merged.lines) (position : Position) :
    (copied.lines.offset? position = none ∧
        workspace.retracePosition handle position = .ok none) ∨
      ∃ offset, copied.lines.offset? position = some offset ∧
        workspace.retracePosition handle position =
          (workspace.retrace handle offset).map fun answer =>
            answer.bind merged.lines.position? := by
  simp only [retracePosition, retrace, hlive, hsession, hcopied, hframe]
  rcases copied.lines.offset? position with _ | offset
  · exact Or.inl ⟨rfl, rfl⟩
  · refine Or.inr ⟨offset, rfl, ?_⟩
    simp only
    rcases tracer.retrace offset with fault | _ | reached <;> rfl

/-- **Positions are answered in the last merged text.**  In every state that calls of the workspace
reach with texts within the limit, under a policy that may answer differently in every call, take a
live handle.  The staged edits of its
tracer can be undone on the source, the last first, and all of them are accepted.  A position has an
answer exactly if it stands for an offset of the copy and this offset has an answer inside the text
that comes out, and then the answer is the line and the column of that place there.  Otherwise there
is none: the position stands for no offset, or the offset has no answer, or its answer is behind the
end of that text.  The calculation breaks off for no offset that leaves room for all that the log
removes. -/
theorem retracePosition_eq_some_iff (config : Config)
    (hown : ∀ move ∈ moves, move.call.isOwn = true)
    (hfits : (withConfig config).FitsThroughMoves moves)
    (hlive : ((withConfig config).afterMoves moves).tracer? handle = some tracer) :
    let workspace := (withConfig config).afterMoves moves
    ∃ source copied merged, workspace.documents.find? tracer.source = some source ∧
      workspace.documents.find? handle.copy = some copied ∧
      source.applyBack tracer.staged = .ok merged ∧
      ∀ position,
        (∀ answer, workspace.retracePosition handle position = .ok (some answer) ↔
          ∃ offset reached : Nat, copied.lines.offset? position = some offset ∧
            workspace.retrace handle offset = .ok (some reached) ∧ reached ≤ merged.length ∧
            merged.lines.position? reached = some answer) ∧
        (workspace.retracePosition handle position = .ok none ↔
          ∀ offset, copied.lines.offset? position = some offset →
            workspace.retrace handle offset = .ok none ∨
              ∃ reached : Nat, workspace.retrace handle offset = .ok (some reached) ∧
                merged.length < reached) ∧
        ∀ offset : Nat, copied.lines.offset? position = some offset →
          offset + removedSize tracer.log.entries ≤ Offset.limit →
            ∃ answer, workspace.retracePosition handle position = .ok answer := by
  intro workspace
  have hinitial := coherent_withConfig config
  have hframed := kept_framed.afterMoves Framed.withPolicy hinitial hown hfits
    (framed_initial config config.commit.policy)
  have hranged := kept_ranged.afterMoves Ranged.withPolicy hinitial hown hfits
    (ranged_initial config config.commit.policy)
  obtain ⟨source, copied, session, merged, hsource, hcopied, hsession, hmerged, hframe⟩ :=
    hframed.exists_frame (hinitial.afterMoves hown) hlive
  obtain ⟨hactive, -⟩ := (hinitial.afterMoves hown).handle_eq hlive
  have hwithin : ∀ edit ∈ tracer.log.entries,
      edit.offset + edit.inserted.utf8ByteSize ≤ Offset.limit :=
    (List.forall_mem_append.1 (hranged.within hactive)).1
  refine ⟨source, copied, merged, hsource, hcopied, hmerged, ?_⟩
  intro position
  rcases retracePosition_of_live hlive hsession hcopied hframe position with
    ⟨hnone, heq⟩ | ⟨offset, hoffset, heq⟩
  · rw [hnone, heq]
    simp
  · rw [hoffset, heq]
    simp only [Option.some.injEq, exists_and_left, exists_eq_left', forall_eq']
    rcases hretrace : workspace.retrace handle offset with fault | _ | reached
    · refine ⟨fun answer => by simp [Except.map], by simp [Except.map], ?_⟩
      -- with enough room there is no fault
      intro hroom
      obtain ⟨answer, hanswer, -⟩ := retraceThrough_of_room hwithin hroom
      have hfault : tracer.retrace offset = .error fault := by
        simpa only [workspace, retrace, hlive] using hretrace
      cases hfault.symm.trans hanswer
    · exact ⟨fun answer => by simp [Except.map], by simp [Except.map], fun _ => ⟨none, rfl⟩⟩
    · refine ⟨?_, ?_, fun _ => ⟨merged.lines.position? reached, rfl⟩⟩
      · intro answer
        simpa [Except.map] using Document.le_of_position?_eq_some
      · simpa [Except.map] using Document.position?_eq_none_iff

/-- An edit that is committed at once puts a line in front.  Of two later ones, one puts another
line there, and one takes the last line away, and the policy lets no commit merge them.  Positions
are answered without these two. -/
theorem retracePosition_among_staged_lines :
    let moves : List Move := [⟨.always, .openDocument "/a" "ab\ncd\nef"⟩,
      ⟨.always, .start ⟨0⟩ ⟨4, 5, by decide⟩ "X"⟩, ⟨.everyEdit, .noteEdit ⟨0⟩ ⟨0, "", "é\n"⟩⟩,
      ⟨.neverOnEdit, .noteEdit ⟨0⟩ ⟨0, "", "\n"⟩⟩,
      ⟨.stampAdvanced, .edit ⟨0⟩ ⟨8, 12, by decide⟩ ""⟩, ⟨.never, .commit ⟨0⟩⟩]
    let workspace := (withConfig .default).afterMoves moves
    let handle : Handle := ⟨⟨1⟩, ⟨1⟩⟩
    let tracer : Tracer := ⟨⟨1⟩, ⟨1⟩, ⟨0⟩, ⟨⟨4, "d", "X"⟩, [⟨0, "é\n", ""⟩]⟩,
      [⟨0, "\n", ""⟩, ⟨8, "", "d\nef"⟩], ⟨1⟩⟩
    (∀ move ∈ moves, move.call.isOwn = true) ∧
      (withConfig .default).FitsThroughMoves moves ∧
      workspace.tracer? handle = some tracer ∧ workspace.text? ⟨0⟩ = some "\né\nab\nc" ∧
      ∃ source copied merged, workspace.documents.find? ⟨0⟩ = some source ∧
        workspace.documents.find? ⟨1⟩ = some copied ∧
        source.applyBack tracer.staged = .ok merged ∧
        (∃ offset reached : Nat, copied.lines.offset? ⟨2, 0⟩ = some offset ∧
          workspace.retrace handle offset = .ok (some reached) ∧ reached ≤ merged.length ∧
          merged.lines.position? reached = some ⟨3, 0⟩) ∧
        workspace.retracePosition handle ⟨2, 0⟩ = .ok (some ⟨3, 0⟩) ∧
        workspace.retracePosition handle ⟨0, 3⟩ = .ok none := by
  intro moves workspace handle tracer
  have hown : ∀ move ∈ moves, move.call.isOwn = true := by decide
  have hfits : (withConfig .default).FitsThroughMoves moves := by decide
  have hlive : workspace.tracer? handle = some tracer := by decide
  obtain ⟨source, copied, merged, hsource, hcopied, hmerged, hpositions⟩ :=
    retracePosition_eq_some_iff .default hown hfits hlive
  have hanswer : workspace.retracePosition handle ⟨2, 0⟩ = .ok (some ⟨3, 0⟩) := rfl
  have hcopy : copied.lines = .ofText "ab\ncX\nef" := by
    have htext : workspace.text? ⟨1⟩ = some "ab\ncX\nef" := by decide
    rw [text?_of_open hcopied, Option.some.injEq] at htext
    exact congrArg Lines.ofText htext
  refine ⟨hown, hfits, hlive, by decide, source, copied, merged, hsource, hcopied, hmerged,
    ((hpositions ⟨2, 0⟩).1 ⟨3, 0⟩).1 hanswer, hanswer, ?_⟩
  -- the first line has two columns
  apply (hpositions ⟨0, 3⟩).2.1.2
  intro offset hoffset
  rw [hcopy] at hoffset
  cases hoffset

end Workspace

end Retrace
