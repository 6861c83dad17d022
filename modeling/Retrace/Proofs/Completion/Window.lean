import Retrace.Proofs.Completion.Answers
import Retrace.Proofs.Completion.Explanation
import Retrace.Proofs.Edit.Window

/-!
# Answers outside the edited window

However often a commit has merged, answers outside the window of the log are exact
(`retrace_outside_window`).  They are about the text that the log explains, which is the source
without the edits that are still staged.  Up to the first place where an edit of the log starts,
an offset is its own answer.  Far enough behind the last one, the answer is the offset moved by
the difference of all lengths.  In both cases the copy and the explained text have the same bytes
on that side.

That no step of an answer leaves the range of offsets comes from an invariant of its own
(`Ranged`): an edit that a tracer holds was undone or made on a text within the limit.
-/

namespace Retrace

/-- Whatever the edits that a tracer holds insert ends within the range of offsets. -/
def Tracer.Within (tracer : Tracer) : Prop :=
  ∀ edit ∈ tracer.log.entries ++ tracer.staged,
    edit.offset + edit.inserted.utf8ByteSize ≤ Offset.limit

namespace Tracer

variable {tracer later : Tracer} {edit : Edit} {before after : String}

theorem within_start {id : Generation} {copy source : DocumentId} {baseline : Stamp}
    (hturns : edit.Turns before after) (hsize : after.utf8ByteSize ≤ Offset.limit) :
    (start id copy source edit baseline).Within := by
  intro creation hcreation
  rw [show creation = edit by simpa [start] using hcreation]
  exact Nat.le_trans hturns.inserted_le hsize

theorem Within.of_grows (h : tracer.Within) (hgrows : tracer.Grows later []) : later.Within := by
  unfold Within
  rw [hgrows.trail, List.map_nil, List.append_nil]
  exact h

/-- An edit is turned round before it is staged, and its inverse inserts what it has removed from
the text before it. -/
theorem Within.of_grows_edit (h : tracer.Within) (hgrows : tracer.Grows later [edit])
    (hturns : edit.Turns before after) (hsize : before.utf8ByteSize ≤ Offset.limit) :
    later.Within := by
  unfold Within
  rw [hgrows.trail, List.forall_mem_append]
  constructor
  · exact h
  · intro inverse hinverse
    rw [List.map_singleton, List.mem_singleton] at hinverse
    subst hinverse
    exact Nat.le_trans hturns.removed_le hsize

end Tracer

namespace Workspace

variable {workspace changed : Workspace} {copy : DocumentId} {tracer : Tracer} {handle : Handle}
  {event : Option Event} {moves : List Move}

/-- Whatever the edits that a live tracer holds insert ends within the range of offsets. -/
structure Ranged (workspace : Workspace) : Prop where
  within : ∀ {copy tracer}, workspace.registry.activeFor? copy = some tracer →
    ∀ edit ∈ tracer.log.entries ++ tracer.staged,
      edit.offset + edit.inserted.utf8ByteSize ≤ Offset.limit

theorem ranged_initial (config : Config) (policy : CommitPolicy) :
    (initial config policy).Ranged where
  within hactive := by cases hactive

/-- Every change keeps what tracers hold within the range of offsets. -/
theorem kept_ranged : Kept Ranged := by
  intro workspace changed event h hfits hfits' hchange hranged
  constructor
  intro copy tracer hactive
  cases h.followed_change hchange hactive with
  | stays hold hgrows hevent hsource hcopy =>
      exact Tracer.Within.of_grows (hranged.within hold) hgrows
  | grows hold hgrows hevent hbefore hafter hturns hcopy =>
      exact Tracer.Within.of_grows_edit (hranged.within hold) hgrows hturns (hfits.size_le hbefore)
  | @begins first source span parts replacement document hevent hgrows hcut hfirst hsource hcopy =>
      have hstart : first.Within := by
        rw [hfirst]
        exact Tracer.within_start (Document.turns_of_cut hcut) (hfits'.size_le hcopy)
      exact hstart.of_grows hgrows

theorem Ranged.withPolicy : Unread Ranged := by
  intro workspace policy h
  exact ⟨h.within⟩

/-- The log of a live tracer leads from the text of the source without the staged edits to the
text of the copy. -/
theorem Explained.merged (h : workspace.Explained)
    (hactive : workspace.registry.activeFor? copy = some tracer) :
    ∃ source copied merged, workspace.documents.find? tracer.source = some source ∧
      workspace.documents.find? copy = some copied ∧
      source.applyBack tracer.staged = .ok merged ∧
      TurnsThrough tracer.log.entries merged.text copied.text := by
  obtain ⟨before, after, hbefore, hafter, hthrough⟩ := h.through hactive
  obtain ⟨source, hsource, rfl⟩ := Option.map_eq_some_iff.1 hbefore
  obtain ⟨copied, hcopied, rfl⟩ := Option.map_eq_some_iff.1 hafter
  obtain ⟨text, hstaged, hlog⟩ := turnsThrough_append.1 hthrough
  obtain ⟨merged, hmerged, rfl⟩ := Document.applyBack_of_turnsThrough hstaged
  exact ⟨source, copied, merged, hsource, hcopied, hmerged, hlog⟩

/-- **Outside the edited window answers are exact.**  In every state that calls of the workspace
reach, under a policy that may answer differently in every call, the staged edits of a live tracer
can be undone on its source, the last first.  Of the text that comes out and of the copy the
following holds.  An offset of the copy up to the start of every edit in the log is its own answer,
and the texts have the same bytes before it.  An offset that is behind the inserted text of every
edit in the log, by more than all of them insert, is answered by the offset that all of them
together move it to, and the texts have the same bytes from there on. -/
theorem retrace_outside_window (config : Config)
    (hown : ∀ move ∈ moves, move.call.isOwn = true)
    (hfits : (withConfig config).FitsThroughMoves moves)
    (hlive : ((withConfig config).afterMoves moves).tracer? handle = some tracer) :
    ∃ source copied merged,
      ((withConfig config).afterMoves moves).documents.find? tracer.source = some source ∧
        ((withConfig config).afterMoves moves).documents.find? handle.copy = some copied ∧
        source.applyBack tracer.staged = .ok merged ∧
        ∀ offset, offset ≤ copied.length →
          (AheadOf tracer.log.entries offset →
            ((withConfig config).afterMoves moves).retrace handle offset = .ok (some offset) ∧
              offset ≤ merged.length ∧
              (Text.bytes copied.text).take offset = (Text.bytes merged.text).take offset) ∧
          (Behind tracer.log.entries offset →
            offset + removedSize tracer.log.entries ≤ Offset.limit →
            ∃ reached : Nat,
              reached = offset + removedSize tracer.log.entries -
                insertedSize tracer.log.entries ∧
              ((withConfig config).afterMoves moves).retrace handle offset =
                .ok (some reached) ∧
              reached ≤ merged.length ∧
              (Text.bytes copied.text).drop offset = (Text.bytes merged.text).drop reached) := by
  have hinitial := coherent_withConfig config
  obtain ⟨hactive, -⟩ := (hinitial.afterMoves hown).handle_eq hlive
  have hexplained := kept_explained.afterMoves Explained.withPolicy hinitial hown hfits
    (explained_initial config config.commit.policy)
  have hranged := kept_ranged.afterMoves Ranged.withPolicy hinitial hown hfits
    (ranged_initial config config.commit.policy)
  obtain ⟨source, copied, merged, hsource, hcopied, hmerged, hthrough⟩ :=
    hexplained.merged hactive
  have hwithin : ∀ edit ∈ tracer.log.entries,
      edit.offset + edit.inserted.utf8ByteSize ≤ Offset.limit :=
    (List.forall_mem_append.1 (hranged.within hactive)).1
  have hretrace : ∀ offset, ((withConfig config).afterMoves moves).retrace handle offset =
      retraceThrough tracer.log.entries offset := by
    intro offset
    simp only [retrace, hlive, Tracer.retrace, Log.retrace]
  refine ⟨source, copied, merged, hsource, hcopied, hmerged, ?_⟩
  intro offset hoffset
  constructor
  · intro hahead
    have hbytes := hthrough.take_bytes hahead
    refine ⟨?_, ?_, hbytes⟩
    · rw [hretrace]
      exact retraceThrough_of_aheadOf hwithin hahead
    · -- as many bytes as are before the offset in the copy are in the other text
      have hlengths := congrArg List.length hbytes
      rw [List.length_take, List.length_take, Text.length_bytes, Text.length_bytes] at hlengths
      unfold Document.length at hoffset ⊢
      omega
  · intro hbehind hroom
    refine ⟨_, rfl, ?_, ?_, hthrough.drop_bytes hbehind⟩
    · rw [hretrace]
      exact retraceThrough_of_behind hwithin hbehind hroom
    · have hsize := hthrough.size
      unfold Document.length at hoffset ⊢
      omega

/-- A span is replaced, a space behind it is removed and two letters are inserted before it.  The
policy commits the removal at once, and the insertion at the second commit that is asked for.  One
more edit is staged.  The first four bytes and those from the twelfth on are answered. -/
theorem retrace_around_two_merges :
    let moves : List Move := [⟨.never, .openDocument "/a" "aé cd efghijklmnop"⟩,
      ⟨.never, .start ⟨0⟩ ⟨4, 5, Nat.le_succ 4⟩ "XYZ"⟩,
      ⟨.everyEdit, .edit ⟨0⟩ ⟨6, 7, Nat.le_succ 6⟩ ""⟩, ⟨.always, .noteEdit ⟨0⟩ ⟨4, "", "zz"⟩⟩,
      ⟨.never, .commit ⟨0⟩⟩, ⟨.stampAdvanced, .commit ⟨0⟩⟩,
      ⟨.neverOnEdit, .edit ⟨0⟩ ⟨0, 1, Nat.le_succ 0⟩ ""⟩]
    let workspace := (withConfig .default).afterMoves moves
    let handle : Handle := ⟨⟨1⟩, ⟨1⟩⟩
    let tracer : Tracer := ⟨⟨1⟩, ⟨1⟩, ⟨0⟩,
      ⟨⟨4, "c", "XYZ"⟩, [⟨6, "", " "⟩, ⟨4, "zz", ""⟩]⟩, [⟨0, "", "a"⟩], ⟨2⟩⟩
    (∀ move ∈ moves, move.call.isOwn = true) ∧
      (withConfig .default).FitsThroughMoves moves ∧
      workspace.tracer? handle = some tracer ∧
      AheadOf tracer.log.entries 4 ∧ Behind tracer.log.entries 12 ∧
      ∃ source copied merged, workspace.documents.find? ⟨0⟩ = some source ∧
        workspace.documents.find? ⟨1⟩ = some copied ∧
        source.applyBack tracer.staged = .ok merged ∧
        workspace.retrace handle 4 = .ok (some 4) ∧
        (Text.bytes copied.text).take 4 = (Text.bytes merged.text).take 4 ∧
        workspace.retrace handle 12 = .ok (some 11) ∧
        (Text.bytes copied.text).drop 12 = (Text.bytes merged.text).drop 11 := by
  intro moves workspace handle tracer
  have hown : ∀ move ∈ moves, move.call.isOwn = true := by decide
  have hfits : (withConfig .default).FitsThroughMoves moves := by decide
  have hlive : workspace.tracer? handle = some tracer := by decide
  have hahead : AheadOf tracer.log.entries 4 := by decide
  have hbehind : Behind tracer.log.entries 12 := by decide
  obtain ⟨source, copied, merged, hsource, hcopied, hmerged, hanswers⟩ :=
    retrace_outside_window .default hown hfits hlive
  have hlength : copied.length = 21 := by
    have htext : workspace.text? ⟨1⟩ = some "aé XYZd efghijklmnop" := by decide
    rw [text?_of_open hcopied, Option.some.injEq] at htext
    exact congrArg String.utf8ByteSize htext
  obtain ⟨hfour, -, hfront⟩ := (hanswers 4 (by omega)).1 hahead
  obtain ⟨reached, hreached, htwelve, -, hback⟩ :=
    (hanswers 12 (by omega)).2 hbehind (by decide)
  -- two letters and the replaced letter are removed, four bytes are inserted
  have heleven : reached = 11 := hreached
  subst heleven
  exact ⟨hown, hfits, hlive, hahead, hbehind, source, copied, merged, hsource, hcopied, hmerged,
    hfour, hfront, htwelve, hback⟩

end Workspace

end Retrace
