import Retrace.Proofs.Completion.Effect
import Retrace.Proofs.Completion.Window

/-!
# Answers that do not break off

Taking an offset back through an edit adds two lengths to it, and both sums have to stay within the
range of offsets.  The first one does for every edit that a tracer holds, because the edit was made
or undone on a text within the limit.  No call changes that, whether it goes to the workspace or
past it (`Ranged.effect`), so no coherence is needed here.  The second one does if there is room for
all that the edits of the log remove (`retrace_with_room`).
-/

namespace Retrace

theorem Log.retraceSpan_of_ok {log : Log} {span : Span}
    (hstart : ∃ answer, log.retrace span.start = .ok answer)
    (hstop : ∃ answer, log.retrace span.stop = .ok answer) :
    ∃ answer, log.retraceSpan span = .ok answer := by
  obtain ⟨start | start, hstart⟩ := hstart
  · exact ⟨none, by simp only [retraceSpan, hstart]⟩
  · obtain ⟨stop | stop, hstop⟩ := hstop
    · exact ⟨none, by simp only [retraceSpan, hstart, hstop]⟩
    · exact ⟨_, by simp only [retraceSpan, hstart, hstop]; rfl⟩

namespace Workspace

variable {workspace changed placed : Workspace} {source copy : DocumentId} {document : Document}
  {tracer : Tracer} {handle : Handle} {call : Call} {calls : List Call}

/-- The copy in which a text is placed has this text. -/
theorem Placed.text?_copy {text : String} (hplaced : Placed workspace source text copy placed) :
    placed.text? copy = some text := by
  unfold text?
  rcases hplaced.documents with ⟨old, -, -, heq⟩ | ⟨-, rfl, heq⟩
  · rw [heq, Store.find?_put, if_pos rfl]
    rfl
  · rw [heq, Store.find?_add, if_pos rfl]
    rfl

namespace Ranged

/-- Tracers may go, and those that stay hold what they held. -/
theorem of_grows (h : workspace.Ranged)
    (hactive : ∀ {copy tracer}, changed.registry.activeFor? copy = some tracer →
      ∃ old, workspace.registry.activeFor? copy = some old ∧ old.Grows tracer []) :
    changed.Ranged where
  within := by
    intro copy tracer hlive
    obtain ⟨old, hold, hgrows⟩ := hactive hlive
    exact Tracer.Within.of_grows (h.within hold) hgrows

theorem of_active (h : workspace.Ranged)
    (hactive : ∀ {copy tracer}, changed.registry.activeFor? copy = some tracer →
      workspace.registry.activeFor? copy = some tracer) : changed.Ranged :=
  h.of_grows fun hlive => ⟨_, hactive hlive, .refl _⟩

theorem endSessionsOn (h : workspace.Ranged) (source : DocumentId) :
    (workspace.endSessionsOn source).Ranged := by
  apply h.of_active
  intro copy tracer hlive
  rw [activeFor?_endSessionsOn, Option.filter_eq_some_iff] at hlive
  exact hlive.1

theorem withoutSession (h : workspace.Ranged) (copy : DocumentId) :
    (workspace.withoutSession copy).Ranged := by
  apply h.of_active
  intro id tracer hlive
  rw [activeFor?_withoutSession] at hlive
  split at hlive
  · cases hlive
  · exact hlive

theorem withEdit (h : workspace.Ranged) (hfits : workspace.Fits) {edit : Edit} {edited : Document}
    (hopen : workspace.documents.find? source = some document)
    (happly : document.apply edit = .ok edited) :
    (workspace.withEdit source edit edited).Ranged where
  within := by
    intro copy tracer hlive
    obtain ⟨-, text, hturns, -⟩ := Document.apply_eq_ok_iff.1 happly
    rw [activeFor?_withEdit] at hlive
    obtain ⟨old, hold, rfl⟩ := Option.map_eq_some_iff.1 hlive
    have hwithin : old.Within := h.within hold
    split
    · exact hwithin.of_grows_edit (.record old edit) hturns (hfits.length_le hopen)
    · exact hwithin

theorem withCommit (h : workspace.Ranged) (source : DocumentId) (document : Document) :
    (workspace.withCommit source document).Ranged := by
  apply h.of_grows
  intro copy tracer hlive
  rw [activeFor?_withCommit] at hlive
  obtain ⟨old, hold, rfl⟩ := Option.map_eq_some_iff.1 hlive
  refine ⟨old, hold, ?_⟩
  split
  · exact .mergeStaged old _ _
  · exact .refl old

/-- The text that the first edit of a new tracer has made is that of the copy. -/
theorem withTracer (h : workspace.Ranged) {text : String} {creation : Edit} {session : Session}
    {id : Generation} {baseline : Stamp} (hplaced : Placed workspace source text copy placed)
    (hturns : creation.Turns document.text text) (hfits : placed.Fits) :
    (placed.withTracer (.start id copy source creation baseline) session).Ranged where
  within := by
    intro other tracer hlive
    rw [activeFor?_withTracer, hplaced.registry] at hlive
    split at hlive
    · cases hlive
      exact Tracer.within_start hturns (hfits.size_le hplaced.text?_copy)
    · exact h.within hlive

/-- Every call keeps what tracers hold within the range of offsets, on the workspace or past it. -/
theorem effect (h : workspace.Ranged) (heffect : workspace.Effect call changed)
    (hfits : workspace.Fits) (hfits' : changed.Fits) : changed.Ranged := by
  cases heffect with
  | same => exact h
  | opened path text => exact h.of_active fun hlive => hlive
  | reopened id path text => exact (h.endSessionsOn id).of_active fun hlive => hlive
  | @closed id document hcall hopen hnocopy =>
      let closed : Workspace := { workspace with documents := (workspace.documents.close id).2 }
      have hclosed : closed.Ranged := h.of_active fun hlive => hlive
      exact hclosed.endSessionsOn id
  | closedCopy hcall hopen hcopy hidle => exact h.of_active fun hlive => hlive
  | closedSession hcall hopen hcopy =>
      exact (h.withoutSession _).of_active fun hlive => hlive
  | edited hopen happly => exact h.withEdit hfits hopen happly
  | editedCommitted hopen happly => exact (h.withEdit hfits hopen happly).withCommit _ _
  | committed hopen => exact h.withCommit _ _
  | started hopen hplaced hturns => exact h.withTracer hplaced hturns hfits'
  | disposed copy => exact h.withoutSession copy
  | disposedAll => exact h.of_active fun hlive => by cases hlive
  | onDocuments hcall => exact h.of_active fun hlive => hlive

theorem after (h : workspace.Ranged) (hfits : workspace.FitsThrough calls) :
    (workspace.after calls).Ranged := by
  induction calls generalizing workspace with
  | nil => exact h
  | cons call rest ih =>
      exact ih (h.effect (step_effect workspace call) hfits.1 hfits.2.fits) hfits.2

end Ranged

/-- **With room for what was removed, no answer breaks off.**  Calls are made on a workspace and
past it, on its documents, and all texts stay within the limit of offsets.  Then whatever an edit
inserts that a live tracer holds, in its log or staged, ends within this limit too.  An offset of
the copy has a result if there is room behind it for all that the edits of the log remove, and an
answer is moved on by no more than that.  A span has a result if there is as much room behind both
its ends. -/
theorem retrace_with_room (config : Config) (policy : CommitPolicy)
    (hfits : (initial config policy).FitsThrough calls)
    (hlive : ((initial config policy).after calls).tracer? handle = some tracer) :
    let workspace := (initial config policy).after calls
    let room := removedSize tracer.log.entries
    (∀ edit ∈ tracer.log.entries ++ tracer.staged,
      edit.offset + edit.inserted.utf8ByteSize ≤ Offset.limit) ∧
    (∀ offset, offset + room ≤ Offset.limit → ∃ answer,
      workspace.retrace handle offset = .ok answer ∧
        ∀ reached : Nat, answer = some reached → reached ≤ offset + room) ∧
    ∀ span : Span, span.start + room ≤ Offset.limit → span.stop + room ≤ Offset.limit →
      ∃ answer, workspace.retraceSpan handle span = .ok answer := by
  intro workspace room
  have hranged : workspace.Ranged := (ranged_initial config policy).after hfits
  obtain ⟨hfind, -⟩ := Option.filter_eq_some_iff.1 hlive
  obtain ⟨hactive, -⟩ := Registry.find?_eq_some_iff.1 hfind
  have hwithin := hranged.within hactive
  have hanswers : ∀ offset, offset + room ≤ Offset.limit → ∃ answer,
      tracer.log.retrace offset = .ok answer ∧
        ∀ reached : Nat, answer = some reached → reached ≤ offset + room := by
    intro offset hroom
    exact retraceThrough_of_room (List.forall_mem_append.1 hwithin).1 hroom
  refine ⟨hwithin, ?_, ?_⟩
  · intro offset hroom
    obtain ⟨answer, hanswer, hbound⟩ := hanswers offset hroom
    refine ⟨answer, ?_, hbound⟩
    simp only [workspace, retrace, hlive, Tracer.retrace, hanswer]
  · intro span hstart hstop
    obtain ⟨first, hfirst, -⟩ := hanswers span.start hstart
    obtain ⟨last, hlast, -⟩ := hanswers span.stop hstop
    obtain ⟨answer, hanswer⟩ := Log.retraceSpan_of_ok ⟨first, hfirst⟩ ⟨last, hlast⟩
    refine ⟨answer, ?_⟩
    simp only [workspace, retraceSpan, hlive, Tracer.retraceSpan, hanswer]

/-- Somebody makes a copy past the workspace and closes it through the workspace, and rewrites the
source past the workspace.  Three bytes are removed by the edits in the log, so the last offset with
room is three below the limit.  At the limit itself an answer breaks off. -/
theorem retrace_up_to_three_below_limit :
    let calls : List Call := [.openDocument "/a" "aé cd",
      .start ⟨0⟩ ⟨4, 5, Nat.le_succ 4⟩ "XYZ", .onDocuments (.createCopy ⟨0⟩ "c"),
      .closeDocument ⟨2⟩, .edit ⟨0⟩ ⟨0, 0, Nat.le_refl 0⟩ "zz", .commit ⟨0⟩,
      .onDocuments (.setText ⟨0⟩ "q"), .noteEdit ⟨0⟩ ⟨0, "q", ""⟩]
    let workspace := (initial .default .stampAdvanced).after calls
    let handle : Handle := ⟨⟨1⟩, ⟨1⟩⟩
    let tracer : Tracer := ⟨⟨1⟩, ⟨1⟩, ⟨0⟩,
      ⟨⟨4, "c", "XYZ"⟩, [⟨0, "zz", ""⟩]⟩, [⟨0, "", "q"⟩], ⟨1⟩⟩
    (initial .default .stampAdvanced).FitsThrough calls ∧
      workspace.tracer? handle = some tracer ∧ removedSize tracer.log.entries = 3 ∧
      (∀ edit ∈ tracer.log.entries ++ tracer.staged,
        edit.offset + edit.inserted.utf8ByteSize ≤ Offset.limit) ∧
      (∃ answer, workspace.retrace handle (Offset.limit - 3) = .ok answer ∧
        ∀ reached : Nat, answer = some reached → reached ≤ Offset.limit) ∧
      (∃ answer, workspace.retraceSpan handle ⟨7, Offset.limit - 3, by decide⟩ = .ok answer) ∧
      ∃ fault, workspace.retrace handle Offset.limit = .error fault := by
  intro calls workspace handle tracer
  have hfits : (initial .default .stampAdvanced).FitsThrough calls := by decide
  have hlive : workspace.tracer? handle = some tracer := by decide
  have hthree : removedSize tracer.log.entries = 3 := by decide
  obtain ⟨hwithin, hanswers, hspans⟩ := retrace_with_room .default .stampAdvanced hfits hlive
  rw [hthree] at hanswers hspans
  exact ⟨hfits, hlive, hthree, hwithin, hanswers (Offset.limit - 3) (by decide),
    hspans ⟨7, Offset.limit - 3, by decide⟩ (by decide) (by decide), .overflow, rfl⟩

end Workspace

end Retrace
