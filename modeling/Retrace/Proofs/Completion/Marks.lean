import Retrace.Proofs.Completion.Moves
import Retrace.Proofs.Edit.Marks

/-!
# Named offsets stay inside the text

A session names three places of its source: the start of the span, twice, and its end.
Whatever is done, they are in this order and at boundaries of the text as it is now
(`kept_marked`).  So they can always be carried over an edit, and an edit that is made is also
accepted (`Marked.sweep_eq_ok`).
-/

namespace Retrace

open Text (isBoundary)

/-- The three named offsets, in order and at boundaries of a text. -/
def Marks.Within (marks : Marks) (text : String) : Prop :=
  ∃ start stop : Nat,
    marks.entries = [(.start, start), (.selectionEnd, start), (.identifierEnd, stop)] ∧
      start ≤ stop ∧ isBoundary text start = true ∧ isBoundary text stop = true

/-- Three offsets, the first two of them equal, are carried each by itself. -/
theorem Marks.carry_of_entries {marks : Marks} {edit : Edit}
    {start stop newStart newStop : Nat}
    (hentries : marks.entries = [(.start, start), (.selectionEnd, start), (.identifierEnd, stop)])
    (hfits : edit.offset + edit.removed.utf8ByteSize ≤ Offset.limit)
    (hstart : edit.carry start = .ok newStart) (hstop : edit.carry stop = .ok newStop) :
    (Marks.carry marks edit).1 = .ok () ∧ (Marks.carry marks edit).2.entries =
      [(.start, newStart), (.selectionEnd, newStart), (.identifierEnd, newStop)] := by
  have hswept : sweepEntries edit.shift marks.entries =
      (.ok (), [(.start, newStart), (.selectionEnd, newStart), (.identifierEnd, newStop)]) := by
    simp only [hentries, sweepEntries, Edit.shift, hstart, hstop]
  rw [Marks.carry_eq_sweep marks hfits]
  exact ⟨congrArg Prod.fst hswept, congrArg Prod.snd hswept⟩

theorem Marks.Within.carry {marks : Marks} {edit : Edit} {before after : String}
    (h : marks.Within before) (hturns : edit.Turns before after)
    (hbefore : before.utf8ByteSize ≤ Offset.limit) (hafter : after.utf8ByteSize ≤ Offset.limit) :
    (Marks.carry marks edit).1 = .ok () ∧ (Marks.carry marks edit).2.Within after := by
  obtain ⟨start, stop, hentries, hle, hstart, hstop⟩ := h
  obtain ⟨newStart, hnewStart, -⟩ :=
    hturns.carry_eq_ok hbefore hafter (Text.le_size_of_isBoundary hstart)
  obtain ⟨newStop, hnewStop, -⟩ :=
    hturns.carry_eq_ok hbefore hafter (Text.le_size_of_isBoundary hstop)
  obtain ⟨hok, hcarried⟩ := Marks.carry_of_entries hentries
    (Nat.le_trans hturns.removed_le hbefore) hnewStart hnewStop
  refine ⟨hok, newStart, newStop, hcarried, ?_, ?_, ?_⟩
  · exact Edit.carry_le_carry hle hnewStart hnewStop
  · exact hturns.isBoundary_carry hbefore hstart hnewStart
  · exact hturns.isBoundary_carry hbefore hstop hnewStop

theorem Session.marksOf_within {document : Document} {span : Span} {parts : Text.Cut}
    (hcut : document.cut span = .ok parts) : (Session.marksOf span).Within document.text := by
  obtain ⟨hstart, hstop⟩ := Text.exists_cut_iff.1 ⟨parts, Document.cut_eq_ok_iff.1 hcut⟩
  exact ⟨span.start, span.stop, rfl, span.start_le_stop, hstart, hstop⟩

namespace Workspace

variable {workspace changed : Workspace} {source copy : DocumentId} {edit : Edit}
  {document : Document} {event : Option Event}

/-- The named offsets of every session are inside the text of its source. -/
structure Marked (workspace : Workspace) : Prop where
  within : ∀ {copy session document}, workspace.sessions.find? copy = some session →
    workspace.documents.find? session.source = some document →
      session.marks.Within document.text

/-- No named offset is in the way of an edit. -/
theorem Marked.sweep_eq_ok (h : workspace.Marked) {text : String}
    (hopen : workspace.documents.find? source = some document)
    (hturns : edit.Turns document.text text) (hbefore : document.length ≤ Offset.limit)
    (hafter : text.utf8ByteSize ≤ Offset.limit) :
    workspace.sessions.sweep (Session.carry source edit) =
      (.ok (), workspace.sessions.map fun _ session => (session.carry source edit).2) := by
  refine Table.sweep_of_forall_ok ?_
  intro copy session hsession
  unfold Session.carry
  split
  · next heq =>
      exact ((h.within hsession (heq ▸ hopen)).carry hturns hbefore hafter).1
  · rfl

/-- Every change keeps named offsets inside the text of their source. -/
theorem kept_marked : Kept Marked := by
  intro workspace changed event h hfits hfits' hchange hmarked
  refine ⟨?_⟩
  intro copy session original hsession horiginal
  cases hchange with
  | shrunk hshrinks =>
      exact hmarked.within (hshrinks.sessions_eq_some hsession) (hshrinks.find?_eq_some horiginal)
  | opened hfree =>
      obtain ⟨tracer, hactive, heq⟩ := h.exists_tracer hsession
      obtain ⟨old, hold, -⟩ := h.tracer_source_open hactive
      rw [← heq] at hold
      have hne : session.source ≠ ⟨workspace.documents.nextIndex⟩ := by
        intro hnext
        rw [hnext, h.sound.not_open_next] at hold
        cases hold
      rw [Store.find?_openFresh, if_neg hne] at horiginal
      exact hmarked.within hsession horiginal
  | rewritten hopen hnocopy hidle =>
      obtain ⟨tracer, hactive, heq⟩ := h.exists_tracer hsession
      rw [Store.find?_put, if_neg (heq ▸ hidle hactive)] at horiginal
      exact hmarked.within hsession horiginal
  | @edited source edit document edited hopen hnocopy happly =>
      obtain ⟨-, text, hturns, rfl⟩ := Document.apply_eq_ok_iff.1 happly
      have hbefore : document.length ≤ Offset.limit := hfits.length_le hopen
      have hafter : text.utf8ByteSize ≤ Offset.limit :=
        hfits'.length_le ((find?_documents_withEdit).trans (if_pos rfl))
      have hswept := hmarked.sweep_eq_ok hopen hturns hbefore hafter
      have hsessions : (workspace.withEdit source edit (document.setText text)).sessions =
          workspace.sessions.map fun _ session => (session.carry source edit).2 :=
        congrArg Prod.snd hswept
      rw [hsessions, Table.find?_map] at hsession
      obtain ⟨old, hold, rfl⟩ := Option.map_eq_some_iff.1 hsession
      rw [find?_documents_withEdit] at horiginal
      by_cases heq : old.source = source
      · have hwithin := (hmarked.within hold (heq ▸ hopen)).carry hturns hbefore hafter
        simp only [Session.carry, if_pos heq] at horiginal ⊢
        cases horiginal
        exact hwithin.2
      · simp only [Session.carry, if_neg heq] at horiginal ⊢
        exact hmarked.within hold horiginal
  | @committed source document hopen =>
      obtain ⟨frame, hmap⟩ := sessions_withCommit workspace source document copy
      rw [hsession] at hmap
      obtain ⟨old, hold, rfl⟩ := Option.map_eq_some_iff.1 hmap.symm
      rw [find?_documents_withCommit] at horiginal
      split at horiginal
      · next heq =>
          have hwithin : old.marks.Within document.text := hmarked.within hold (heq ▸ hopen)
          cases horiginal
          exact hwithin
      · have hwithin : old.marks.Within original.text := hmarked.within hold horiginal
        exact hwithin
  | @started source id span parts replacement document placed first hopen hnocopy hcut hplaced
      hfirst =>
      have hid : first.copy = id := by
        rw [hfirst]
        rfl
      rw [sessions_withTracer, hid, hplaced.sessions] at hsession
      have hview : placed.documents.find? session.source = some original := horiginal
      split at hsession
      · cases hsession
        have hsource := hplaced.find?_eq_some h hopen hnocopy
        cases hsource.symm.trans hview
        exact Session.marksOf_within hcut
      · obtain ⟨tracer, hactive, heq⟩ := h.exists_tracer hsession
        obtain ⟨old, hold, hof⟩ := h.tracer_source_open hactive
        rw [heq, hplaced.find?_eq_some h hold hof, ← hold] at hview
        exact hmarked.within hsession (heq ▸ hview)

theorem marked_initial (config : Config) (policy : CommitPolicy) :
    (initial config policy).Marked where
  within hsession := by cases hsession

theorem Marked.withPolicy : Unread Marked := by
  intro workspace policy h
  exact ⟨h.within⟩

/-- An edit that is made with texts within the limit leaves no named offset behind. -/
theorem Marked.not_broken (h : workspace.Marked) {fault : Fault} (hfits : workspace.Fits)
    (hfits' : changed.Fits)
    (hadvances : Advances workspace (some (.edited source edit)) changed) :
    (workspace.sessions.sweep (Session.carry source edit)).1 ≠ .error fault := by
  have hchange : ∀ {changed : Workspace}, changed.Fits →
      Change workspace (some (.edited source edit)) changed →
        (workspace.sessions.sweep (Session.carry source edit)).1 ≠ .error fault := by
    intro changed hfits' hchange
    cases hchange with
    | edited hopen hnocopy happly =>
        obtain ⟨-, text, hturns, rfl⟩ := Document.apply_eq_ok_iff.1 happly
        rw [h.sweep_eq_ok hopen hturns (hfits.length_le hopen)
          (hfits'.length_le ((find?_documents_withEdit).trans (if_pos rfl)))]
        simp
  cases hadvances with
  | same hevent heq => cases hevent
  | single hedited => exact hchange hfits' hedited
  | double hedited hagain hmiddle => exact hchange (hmiddle hfits hfits') hedited

end Workspace

end Retrace
