import Retrace.Proofs.Completion.Moves
import Retrace.Proofs.Completion.Trace

/-!
# What a tracer holds explains the copy

From the text of the source as it is now, the staged edits, the log and the edit that made the
copy lead, in this order and each from its end, to the text of the copy
(`applyBack_source_eq_copy`).  Every document on the way accepts its edit.

The invariant is about texts only (`Explained`).  An edit of the source adds one step at the
beginning of the way, and nothing else changes a text that a live tracer relates.
-/

namespace Retrace

/-- Make the edits of a list, the last first, and stop at the first that is not accepted. -/
def Document.applyBack (document : Document) : List Edit → Except Failure Document
  | [] => .ok document
  | edit :: later =>
      match document.applyBack later with
      | .error failure => .error failure
      | .ok turned => turned.apply edit

theorem Document.applyBack_of_turnsThrough {document : Document} {edits : List Edit} {text : String}
    (h : TurnsThrough edits document.text text) :
    ∃ turned, document.applyBack edits = .ok turned ∧ turned.text = text := by
  induction edits generalizing text with
  | nil => exact ⟨document, rfl, h⟩
  | cons edit later ih =>
      obtain ⟨middle, hlater, hfits, hturns⟩ := h
      obtain ⟨turned, hturned, rfl⟩ := ih hlater
      refine ⟨turned.setText text, ?_, rfl⟩
      simp only [applyBack, hturned]
      exact apply_of_turns hfits hturns

namespace Workspace

variable {workspace changed : Workspace} {copy : DocumentId} {tracer : Tracer}
  {event : Option Event} {moves : List Move}

/-- What a live tracer holds leads from the text of the source to the text of the copy. -/
structure Explained (workspace : Workspace) : Prop where
  through : ∀ {copy tracer}, workspace.registry.activeFor? copy = some tracer →
    ∃ before after, workspace.text? tracer.source = some before ∧
      workspace.text? copy = some after ∧
      TurnsThrough (tracer.log.entries ++ tracer.staged) before after

theorem explained_initial (config : Config) (policy : CommitPolicy) :
    (initial config policy).Explained where
  through hactive := by cases hactive

theorem Fits.size_le (h : workspace.Fits) {id : DocumentId} {text : String}
    (htext : workspace.text? id = some text) : text.utf8ByteSize ≤ Offset.limit := by
  obtain ⟨document, hopen, rfl⟩ := Option.map_eq_some_iff.1 htext
  exact h.length_le hopen

/-- Every change keeps what tracers hold an explanation of their copies. -/
theorem kept_explained : Kept Explained := by
  intro workspace changed event h hfits hfits' hchange hexplained
  refine ⟨?_⟩
  intro copy tracer hactive
  cases h.followed_change hchange hactive with
  | stays hold hgrows hevent hsource hcopy =>
      obtain ⟨before, after, hbefore, hafter, hthrough⟩ := hexplained.through hold
      refine ⟨before, after, ?_, hcopy.trans hafter, ?_⟩
      · rw [hgrows.source, hsource, hbefore]
      · rw [hgrows.trail, List.map_nil, List.append_nil]
        exact hthrough
  | @grows old edit before after hold hgrows hevent hbefore hafter hturns hcopy =>
      obtain ⟨was, copied, hwas, hcopied, hthrough⟩ := hexplained.through hold
      rw [hbefore, Option.some.injEq] at hwas
      subst hwas
      refine ⟨after, copied, ?_, hcopy.trans hcopied, ?_⟩
      · rw [hgrows.source, hafter]
      · -- the way begins with one step more: undoing the edit
        rw [hgrows.trail]
        exact hthrough.concat (Nat.le_trans hturns.inserted_le (hfits'.size_le hafter))
          hturns.inverse
  | @begins first source span parts replacement document hevent hgrows hcut hfirst hsource hcopy =>
      have hturns : Edit.Turns ⟨span.start, parts.inside, replacement⟩ document.text
          (parts.replace replacement) := Document.turns_of_cut hcut
      refine ⟨document.text, parts.replace replacement, ?_, hcopy, ?_⟩
      · rw [hgrows.source, hfirst]
        exact hsource
      · rw [hgrows.trail, hfirst]
        exact ⟨document.text, rfl,
          Nat.le_trans hturns.removed_le (hfits'.size_le hsource), hturns⟩

theorem Explained.withPolicy : Unread Explained := by
  intro workspace policy h
  exact ⟨h.through⟩

/-- **A tracer explains its copy.**  In every state that calls of the workspace reach, under a
policy that may answer differently in every call, the edits that a live tracer holds can be made on
the source, the last first: what is staged, then the log, and at the end the edit that made the
copy.  All of them are accepted, and the result has the text of the copy. -/
theorem applyBack_source_eq_copy (config : Config)
    (hown : ∀ move ∈ moves, move.call.isOwn = true)
    (hfits : (withConfig config).FitsThroughMoves moves)
    (hactive : ((withConfig config).afterMoves moves).activeTracer? copy = some tracer) :
    ∃ source copied turned,
      ((withConfig config).afterMoves moves).documents.find? tracer.source = some source ∧
        ((withConfig config).afterMoves moves).documents.find? copy = some copied ∧
        source.applyBack (tracer.log.entries ++ tracer.staged) = .ok turned ∧
        turned.text = copied.text := by
  have hexplained := kept_explained.afterMoves Explained.withPolicy (coherent_withConfig config)
    hown hfits (explained_initial config config.commit.policy)
  obtain ⟨before, after, hbefore, hafter, hthrough⟩ := hexplained.through hactive
  obtain ⟨source, hsource, rfl⟩ := Option.map_eq_some_iff.1 hbefore
  obtain ⟨copied, hcopied, rfl⟩ := Option.map_eq_some_iff.1 hafter
  obtain ⟨turned, hturned, htext⟩ := Document.applyBack_of_turnsThrough hthrough
  exact ⟨source, copied, turned, hsource, hcopied, hturned, htext⟩

/-- A completion on the last word, one edit before two commits and one after them.  The policy lets
only the second commit merge. -/
theorem applyBack_of_merged_and_staged :
    let moves : List Move := [⟨.never, .openDocument "/a" "ab cd"⟩,
      ⟨.never, .start ⟨0⟩ ⟨3, 5, by decide⟩ "X"⟩, ⟨.neverOnEdit, .edit ⟨0⟩ ⟨1, 3, by decide⟩ "é"⟩,
      ⟨.never, .commit ⟨0⟩⟩, ⟨.always, .commit ⟨0⟩⟩, ⟨.never, .noteEdit ⟨0⟩ ⟨0, "a", ""⟩⟩]
    let workspace := withConfig .default
    let tracer : Tracer :=
      ⟨⟨1⟩, ⟨1⟩, ⟨0⟩, ⟨⟨3, "cd", "X"⟩, [⟨1, "é", "b "⟩]⟩, [⟨0, "", "a"⟩], ⟨1⟩⟩
    (∀ move ∈ moves, move.call.isOwn = true) ∧ workspace.FitsThroughMoves moves ∧
      (workspace.afterMoves moves).activeTracer? ⟨1⟩ = some tracer ∧
      ∃ source copied turned,
        (workspace.afterMoves moves).documents.find? tracer.source = some source ∧
          (workspace.afterMoves moves).documents.find? ⟨1⟩ = some copied ∧
          source.applyBack (tracer.log.entries ++ tracer.staged) = .ok turned ∧
          turned.text = copied.text := by
  intro moves workspace tracer
  have hown : ∀ move ∈ moves, move.call.isOwn = true := by decide
  have hfits : workspace.FitsThroughMoves moves := by decide
  have hactive : (workspace.afterMoves moves).activeTracer? ⟨1⟩ = some tracer := by decide
  refine ⟨hown, hfits, hactive, ?_⟩
  exact applyBack_source_eq_copy .default hown hfits hactive

end Workspace

end Retrace
