import Retrace.Proofs.Completion.Failure
import Retrace.Proofs.Completion.Isolation
import Retrace.Proofs.Edit.Replay

/-!
# Where the named offsets of a session are

The start of the span, named twice, and its end are in this order, inside the source and at
boundaries of its text, and an edit that the source accepts can always carry them on
(`marks?_within_source`).  Where they are is known from the tracer as well.  What it holds besides
the creation of the copy are the inverses of the edits since the start.  Undone one after the
other, the oldest first, they take the ends of the replaced span to the named offsets
(`Tracer.Puts`, `kept_tracked`).
An edit moves the named offsets and is staged at once, so both sides make the same step, and a
commit moves the border between the log and what is staged, which the order does not see.
-/

namespace Retrace

open Text (isBoundary)

/-- Take an offset back through the edits of a list, the first of them first.  A place that has no
counterpart goes to where the edit was made. -/
def settleThrough (edits : List Edit) (offset : Nat) : Checked Offset :=
  edits.foldlM (fun reached edit => (edit.retrace reached).map (·.getD edit.offset)) offset

theorem settleThrough_cons (edit : Edit) (later : List Edit) (offset : Nat) :
    settleThrough (edit :: later) offset =
      ((edit.retrace offset).map (·.getD edit.offset)).bind (settleThrough later) := rfl

/-- To settle through the inverses of edits is to be carried over the edits. -/
theorem settleThrough_map_inverse (edits : List Edit) (offset : Nat) :
    settleThrough (edits.map Edit.inverse) offset = carryThrough edits offset := by
  induction edits generalizing offset with
  | nil => rfl
  | cons edit later ih =>
      have hstep : (edit.inverse.retrace offset).map (·.getD edit.inverse.offset) =
          edit.carry offset := (Edit.carry_eq_retrace_inverse edit offset).symm
      rw [List.map_cons, settleThrough_cons, hstep, carryThrough]
      rcases edit.carry offset with fault | moved
      · rfl
      · exact ih moved

/-- One more edit at the end is one more offset that is carried. -/
theorem settleThrough_concat {edits : List Edit} {edit : Edit} {offset reached moved : Nat}
    (h : settleThrough edits offset = .ok reached) (hmoved : edit.carry reached = .ok moved) :
    settleThrough (edits ++ [edit.inverse]) offset = .ok moved := by
  have hlast : settleThrough [edit.inverse] reached = .ok moved := by
    rw [← List.map_singleton, settleThrough_map_inverse, carryThrough, hmoved]
    rfl
  unfold settleThrough at h ⊢
  rw [List.foldlM_append, h]
  exact hlast

/-- Replacing a span removes this span. -/
theorem Document.removedSpan_of_cut {document : Document} {span : Span} {parts : Text.Cut}
    {replacement : String} (hcut : document.cut span = .ok parts)
    (hfits : document.length ≤ Offset.limit) :
    Edit.removedSpan ⟨span.start, parts.inside, replacement⟩ = .ok span := by
  obtain ⟨-, hstart, hstop⟩ := cut_eq_ok_iff_append.1 hcut
  have hturns : Edit.Turns ⟨span.start, parts.inside, replacement⟩ document.text
      (parts.replace replacement) := turns_of_cut hcut
  refine Span.ofLength_eq_ok_iff.2 ⟨rfl, ?_, Nat.le_trans hturns.removed_le hfits⟩
  rw [← hstop, ← hstart, String.utf8ByteSize_append]

/-- The named offsets are where a tracer puts the ends of the span that was replaced: undoing what
it holds behind the creation of the copy, the oldest first, takes them there. -/
def Tracer.Puts (tracer : Tracer) (marks : Marks) : Prop :=
  ∃ removed, ∃ start stop : Nat, tracer.log.creation.removedSpan = .ok removed ∧
    marks.entries = [(.start, start), (.selectionEnd, start), (.identifierEnd, stop)] ∧
    settleThrough (tracer.log.later ++ tracer.staged) removed.start = .ok start ∧
    settleThrough (tracer.log.later ++ tracer.staged) removed.stop = .ok stop

namespace Tracer

variable {tracer later : Tracer} {marks : Marks} {edit : Edit}

/-- At the start nothing is to be undone, and the creation of the copy replaces the span. -/
theorem puts_start {id : Generation} {copy source : DocumentId} {span : Span} {parts : Text.Cut}
    {document : Document} {replacement : String} {baseline : Stamp}
    (hcut : document.cut span = .ok parts) (hfits : document.length ≤ Offset.limit) :
    (Tracer.start id copy source ⟨span.start, parts.inside, replacement⟩ baseline).Puts
      (Session.marksOf span) :=
  ⟨span, span.start, span.stop, Document.removedSpan_of_cut hcut hfits, rfl, rfl, rfl⟩

/-- It does not matter which of the edits are staged. -/
theorem Puts.grows (h : tracer.Puts marks) (hgrows : tracer.Grows later []) : later.Puts marks := by
  have hsame : later.log.later ++ later.staged = tracer.log.later ++ tracer.staged := by
    rw [hgrows.inverses, List.map_nil, List.append_nil]
  unfold Puts
  rw [hgrows.creation, hsame]
  exact h

/-- An edit is staged and carries the named offsets in one step. -/
theorem Puts.record {before after : String} (h : tracer.Puts marks) (hwithin : marks.Within before)
    (hturns : edit.Turns before after) (hbefore : before.utf8ByteSize ≤ Offset.limit)
    (hafter : after.utf8ByteSize ≤ Offset.limit) :
    (tracer.record edit).Puts (Marks.carry marks edit).2 := by
  obtain ⟨removed, start, stop, hremoved, hentries, hstart, hstop⟩ := h
  obtain ⟨start', stop', hentries', -, hinside, hinside'⟩ := hwithin
  have hsame := hentries.symm.trans hentries'
  simp only [List.cons.injEq, Prod.mk.injEq, true_and, and_true] at hsame
  obtain ⟨rfl, -, rfl⟩ := hsame
  obtain ⟨newStart, hnewStart, -⟩ :=
    hturns.carry_eq_ok hbefore hafter (Text.le_size_of_isBoundary hinside)
  obtain ⟨newStop, hnewStop, -⟩ :=
    hturns.carry_eq_ok hbefore hafter (Text.le_size_of_isBoundary hinside')
  have hcarried := Marks.carry_of_entries hentries (Nat.le_trans hturns.removed_le hbefore)
    hnewStart hnewStop
  have hinverses := (Grows.record tracer edit).inverses
  refine ⟨removed, newStart, newStop, hremoved, hcarried.2, ?_, ?_⟩
  · rw [hinverses]
    exact settleThrough_concat hstart hnewStart
  · rw [hinverses]
    exact settleThrough_concat hstop hnewStop

end Tracer

namespace Workspace

variable {workspace changed : Workspace} {source copy : DocumentId} {tracer : Tracer}
  {handle : Handle} {event : Option Event} {calls : List Call}

/-! ### Inside the text -/

/-- **Named offsets stay valid.**  In every state that calls of the workspace reach with texts
within the limit, under any policy, a live handle has three named offsets: the start of its span
under two names and the end of it, in this order.  The start is not behind the end, the end is
inside the source as it is now, and both are at boundaries of its text.  So whatever edit the source
accepts next, with a text within the limit again, no named offset of any session is in its way, and
the edit is made. -/
theorem marks?_within_source (config : Config) (policy : CommitPolicy)
    (hown : ∀ call ∈ calls, call.isOwn = true)
    (hfits : (initial config policy).FitsThrough calls) :
    let workspace := (initial config policy).after calls
    (∀ handle tracer, workspace.tracer? handle = some tracer →
        ∃ source marks, ∃ start stop : Nat,
          workspace.documents.find? tracer.source = some source ∧
            workspace.marks? handle = some marks ∧
            marks.entries = [(.start, start), (.selectionEnd, start), (.identifierEnd, stop)] ∧
            start ≤ stop ∧ stop ≤ source.length ∧
            isBoundary source.text start = true ∧ isBoundary source.text stop = true) ∧
      ∀ source edit document edited, workspace.documents.find? source = some document →
        document.copyOf = none → document.apply edit = .ok edited →
        edited.length ≤ Offset.limit →
          (∀ copy session, workspace.sessions.find? copy = some session →
              session.source = source → (Marks.carry session.marks edit).1 = .ok ()) ∧
            (workspace.sessions.sweep (Session.carry source edit)).1 = .ok () ∧
            (workspace.noteEdit source edit).1 = .ok () := by
  intro workspace
  have hcoherent : workspace.Coherent := (coherent_initial config policy).after hown
  have hmarked : workspace.Marked :=
    kept_marked.after (coherent_initial config policy) hown hfits (marked_initial config policy)
  constructor
  · intro handle tracer hlive
    obtain ⟨hactive, -⟩ := hcoherent.handle_eq hlive
    obtain ⟨session, hsession, hon⟩ := hcoherent.exists_session hactive
    obtain ⟨source, hopen, -⟩ := hcoherent.tracer_source_open hactive
    obtain ⟨start, stop, hentries, hle, hstart, hstop⟩ :=
      hmarked.within hsession (hon ▸ hopen)
    refine ⟨source, session.marks, start, stop, hopen, ?_, hentries, hle, ?_, hstart, hstop⟩
    · rw [marks?, hlive, hsession]
      rfl
    · exact Text.le_size_of_isBoundary hstop
  · intro source edit document edited hopen hcopy happly hedited
    have hlength : document.length ≤ Offset.limit := hfits.fits_after.length_le hopen
    obtain ⟨-, text, hturns, rfl⟩ := Document.apply_eq_ok_iff.1 happly
    refine ⟨?_, ?_, (hmarked.noteEdit_of_apply hopen hcopy happly hlength hedited).1⟩
    · intro copy session hsession hon
      exact ((hmarked.within hsession (hon ▸ hopen)).carry hturns hlength hedited).1
    · exact congrArg Prod.fst (hmarked.sweep_eq_ok hopen hturns hlength hedited)

/-- The replaced character has three bytes.  The first edit takes it away together with the one
before it, and the next two begin where the first one did. -/
theorem marks?_within_source_of_overlaps :
    let calls : List Call := [.openDocument "/a" "aé日b", .start ⟨0⟩ ⟨3, 6, by decide⟩ "X",
      .edit ⟨0⟩ ⟨1, 6, by decide⟩ "üü", .commit ⟨0⟩, .noteEdit ⟨0⟩ ⟨1, "ü", "日"⟩]
    let workspace := (initial .default .stampAdvanced).after calls
    (∀ call ∈ calls, call.isOwn = true) ∧
      (initial .default .stampAdvanced).FitsThrough calls ∧
      (∃ tracer source marks, ∃ start stop : Nat, workspace.tracer? ⟨⟨1⟩, ⟨1⟩⟩ = some tracer ∧
        workspace.documents.find? tracer.source = some source ∧
          workspace.marks? ⟨⟨1⟩, ⟨1⟩⟩ = some marks ∧
          marks.entries = [(.start, start), (.selectionEnd, start), (.identifierEnd, stop)] ∧
          start ≤ stop ∧ stop ≤ source.length ∧
          isBoundary source.text start = true ∧ isBoundary source.text stop = true) ∧
      (workspace.noteEdit ⟨0⟩ ⟨1, "日", ""⟩).1 = .ok () := by
  intro calls workspace
  have hown : ∀ call ∈ calls, call.isOwn = true := by decide
  have hfits : (initial .default .stampAdvanced).FitsThrough calls := by decide
  obtain ⟨hmarks, hmade⟩ := marks?_within_source .default .stampAdvanced hown hfits
  have hlive : (workspace.tracer? ⟨⟨1⟩, ⟨1⟩⟩).isSome = true := by decide
  obtain ⟨tracer, htracer⟩ := Option.isSome_iff_exists.1 hlive
  obtain ⟨source, marks, start, stop, hwithin⟩ := hmarks _ tracer htracer
  refine ⟨hown, hfits, ⟨tracer, source, marks, start, stop, htracer, hwithin⟩, ?_⟩
  have hopen : workspace.documents.find? ⟨0⟩ =
      some ⟨⟨0⟩, some "/a", "a日üb", ⟨2⟩, ⟨1⟩, none⟩ := by decide
  have happly : Document.apply ⟨⟨0⟩, some "/a", "a日üb", ⟨2⟩, ⟨1⟩, none⟩ ⟨1, "日", ""⟩ =
      .ok ⟨⟨0⟩, some "/a", "aüb", ⟨3⟩, ⟨1⟩, none⟩ :=
    Document.apply_of_turns (by decide) ⟨"a", "üb", by decide, by decide, by decide⟩
  exact (hmade ⟨0⟩ _ _ _ hopen rfl happly (by decide)).2.2

/-! ### Where the edits have taken them -/

/-- Every live tracer puts the named offsets of its session where they are. -/
structure Tracked (workspace : Workspace) : Prop where
  puts : ∀ {copy tracer session}, workspace.registry.activeFor? copy = some tracer →
    workspace.sessions.find? copy = some session → tracer.Puts session.marks

theorem tracked_initial (config : Config) (policy : CommitPolicy) :
    (initial config policy).Tracked where
  puts hactive := by cases hactive

/-- Every change keeps the named offsets where the edits have taken them. -/
theorem kept_tracked : Kept fun workspace => workspace.Marked ∧ workspace.Tracked := by
  intro workspace changed event h hfits hfits' hchange ⟨hmarked, htracked⟩
  refine ⟨kept_marked h hfits hfits' hchange hmarked, ?_⟩
  constructor
  intro copy tracer session hactive hsession
  cases hchange with
  | shrunk hshrinks =>
      exact htracked.puts (hshrinks.activeFor?_eq_some hactive)
        (hshrinks.sessions_eq_some hsession)
  | opened hfree => exact htracked.puts hactive hsession
  | rewritten hopen hnocopy hidle => exact htracked.puts hactive hsession
  | @edited source edit document edited hopen hnocopy happly =>
      obtain ⟨-, text, hturns, rfl⟩ := Document.apply_eq_ok_iff.1 happly
      have hbefore : document.length ≤ Offset.limit := hfits.length_le hopen
      have hafter : text.utf8ByteSize ≤ Offset.limit := hfits'.length_le find?_source_withEdit
      have hsessions : (workspace.withEdit source edit (document.setText text)).sessions =
          workspace.sessions.map fun _ session => (session.carry source edit).2 :=
        congrArg Prod.snd (hmarked.sweep_eq_ok hopen hturns hbefore hafter)
      rw [hsessions, Table.find?_map] at hsession
      rw [activeFor?_withEdit] at hactive
      obtain ⟨was, hwas, rfl⟩ := Option.map_eq_some_iff.1 hsession
      obtain ⟨old, hold, rfl⟩ := Option.map_eq_some_iff.1 hactive
      obtain ⟨other, hother, hon⟩ := h.exists_tracer hwas
      rw [hold, Option.some.injEq] at hother
      subst hother
      have hputs := htracked.puts hold hwas
      by_cases hsource : old.source = source
      · have hto : was.source = source := hon.trans hsource
        simp only [Session.carry, if_pos hto, if_pos hsource]
        exact hputs.record (hmarked.within hwas (hto ▸ hopen)) hturns hbefore hafter
      · have hto : was.source ≠ source := fun heq => hsource (hon.symm.trans heq)
        simp only [Session.carry, if_neg hto, if_neg hsource]
        exact hputs
  | @committed source document hopen =>
      rw [activeFor?_withCommit] at hactive
      obtain ⟨old, hold, rfl⟩ := Option.map_eq_some_iff.1 hactive
      obtain ⟨frame, hmap⟩ := sessions_withCommit workspace source document copy
      rw [hsession] at hmap
      obtain ⟨was, hwas, rfl⟩ := Option.map_eq_some_iff.1 hmap.symm
      apply (htracked.puts hold hwas).grows
      split
      · exact .mergeStaged old _ _
      · exact .refl old
  | @started source id span parts replacement document placed first hopen hnocopy hcut hplaced
      hfirst =>
      have hid : first.copy = id := by
        rw [hfirst]
        rfl
      rw [activeFor?_withTracer, hid, hplaced.registry] at hactive
      rw [sessions_withTracer, hid, hplaced.sessions] at hsession
      split at hactive
      · next heq =>
          rw [if_pos heq] at hsession
          cases hactive
          cases hsession
          rw [hfirst]
          exact Tracer.puts_start hcut (hfits.length_le hopen)
      · next hne =>
          rw [if_neg hne] at hsession
          exact htracked.puts hactive hsession

theorem Tracked.withPolicy : Unread fun workspace => workspace.Marked ∧ workspace.Tracked := by
  rintro workspace policy ⟨hmarked, htracked⟩
  exact ⟨Marked.withPolicy policy hmarked, ⟨htracked.puts⟩⟩

/-- The named offsets of a live handle. -/
theorem Tracked.exists_puts (h : workspace.Tracked) (hcoherent : workspace.Coherent)
    (hlive : workspace.tracer? handle = some tracer) :
    ∃ marks, workspace.marks? handle = some marks ∧ tracer.Puts marks := by
  obtain ⟨hactive, -⟩ := hcoherent.handle_eq hlive
  obtain ⟨session, hsession, -⟩ := hcoherent.exists_session hactive
  refine ⟨session.marks, ?_, h.puts hactive hsession⟩
  rw [marks?, hlive, hsession]
  rfl

end Workspace

end Retrace
