import Retrace.Proofs.Completion.History
import Retrace.Proofs.Completion.Places
import Retrace.Proofs.Edit.Order

/-!
# Answers after a commit

Edits of the source that are accepted one after the other are staged, and a commit merges them
all (`after_accepted`, `Tracer.entries_mergeStaged`).  From then on the log is undone from its
end, so the merged edits shift an offset of the copy before the edit that made the copy is
undone (`retrace_after_commit`).

This is meant to take the offset to where its text has gone, and it can fail in two ways.  The
offset meets the edits in reverse order, which matters if one of them is close to it.  And it meets
the edit that made the copy with all shifts made, although this edit still has its place from before
them.  So an offset in front of the replaced span can be shifted into the replacement, and then it
has the answer of this place (`retrace_after_commit_ne_tracked`).
-/

namespace Retrace.Workspace

variable {workspace started : Workspace} {source copy : DocumentId} {span : Span}
  {replacement : String} {completion : Completion} {document : Document} {parts : Text.Cut}
  {tracer : Tracer} {edit : Edit} {edits : List Edit} {calls earlier later : List Call}

/-! ### Accepted calls -/

theorem noteEdit_eq_ok (hpolicy : workspace.policy.commitOnEdit = false)
    (h : (workspace.noteEdit source edit).1 = .ok ()) :
    ∃ document edited, workspace.documents.find? source = some document ∧
      document.apply edit = .ok edited ∧
      (workspace.noteEdit source edit).2 = workspace.withEdit source edit edited := by
  rcases workspace.noteEdit_cases source edit with
    ⟨failure, heq⟩ | ⟨document, edited, hopen, -, happly, hmade⟩
  · rw [heq] at h
    cases h
  · rcases hmade with ⟨fault, -, heq⟩ | ⟨-, heq⟩ | ⟨hpolicy', -⟩
    · rw [heq] at h
      cases h
    · exact ⟨document, edited, hopen, happly, by rw [heq]⟩
    · rw [hpolicy] at hpolicy'
      cases hpolicy'

/-- An accepted call makes its edit, and commits nothing unless the policy asks for it. -/
theorem step_of_accepted {call : Call} (hpolicy : workspace.policy.commitOnEdit = false)
    (h : call.acceptedOn source (workspace.step call).1 = some edit) :
    ∃ document edited, workspace.documents.find? source = some document ∧
      document.apply edit = .ok edited ∧
      (workspace.step call).2 = workspace.withEdit source edit edited := by
  cases call with
  | noteEdit id noted =>
      simp only [step] at h ⊢
      rcases hanswer : (workspace.noteEdit id noted).1 with failure | _
      · rw [hanswer] at h
        cases h
      · rw [hanswer] at h
        obtain ⟨rfl, heq⟩ := Option.ite_none_right_eq_some.1 h
        cases heq
        exact noteEdit_eq_ok hpolicy hanswer
  | edit id span text =>
      simp only [step] at h ⊢
      rcases workspace.edit_cases id span text with ⟨refusal, heq⟩ | ⟨document, parts, -, -, heq⟩
      · rw [heq] at h
        cases h
      · rw [heq] at h ⊢
        rcases hanswer : (workspace.noteEdit id ⟨span.start, parts.inside, text⟩).1 with failure | _
        · rw [hanswer] at h
          cases h
        · rw [hanswer] at h
          obtain ⟨rfl, heq⟩ := Option.ite_none_right_eq_some.1 h
          cases heq
          exact noteEdit_eq_ok hpolicy hanswer
  | openDocument path text => cases h
  | closeDocument id => cases h
  | commit id => cases h
  | start id span replacement => cases h
  | startAt id caret => cases h
  | dispose handle => cases h
  | disposeAll => cases h
  | onDocuments call => cases h

/-- An accepted edit changes the source once, and its inverse is staged.  Every offset of the source
is carried over it. -/
theorem accepted_step {call : Call} (hpolicy : workspace.policy.commitOnEdit = false)
    (hactive : workspace.registry.activeFor? copy = some tracer) (hsource : tracer.source = source)
    (hopen : workspace.documents.find? source = some document)
    (haccepted : call.acceptedOn source (workspace.step call).1 = some edit)
    (hfits : workspace.Fits) (hfits' : (workspace.step call).2.Fits) :
    ∃ edited, (workspace.step call).2.documents.find? source = some edited ∧
      edited.modified.value = document.modified.value + 1 ∧
      (workspace.step call).2.policy = workspace.policy ∧
      (workspace.step call).2.registry.activeFor? copy = some (tracer.record edit) ∧
      ∀ offset, offset ≤ document.length →
        ∃ moved : Nat, edit.carry offset = .ok moved ∧ moved ≤ edited.length := by
  obtain ⟨found, edited, hfound, happly, hstep⟩ := step_of_accepted hpolicy haccepted
  rw [hopen, Option.some.injEq] at hfound
  subst hfound
  obtain ⟨-, text, hturns, rfl⟩ := Document.apply_eq_ok_iff.1 happly
  rw [hstep] at hfits' ⊢
  have hedited : (workspace.withEdit source edit (document.setText text)).documents.find? source =
      some (document.setText text) := by simp
  refine ⟨_, hedited, rfl, rfl, ?_, ?_⟩
  · rw [activeFor?_withEdit, hactive, Option.map_some, if_pos hsource]
  · intro offset hle
    exact hturns.carry_eq_ok (hfits.length_le hopen) (hfits'.length_le hedited) hle

/-- The first of the accepted edits is that of the first call. -/
theorem exists_call_of_accepted
    (hall : List.zipWith (Call.acceptedOn source) calls (workspace.run calls).1 =
      (edit :: edits).map some) :
    ∃ call rest, calls = call :: rest ∧
      call.acceptedOn source (workspace.step call).1 = some edit ∧
      List.zipWith (Call.acceptedOn source) rest ((workspace.step call).2.run rest).1 =
        edits.map some := by
  cases calls with
  | nil => cases hall
  | cons call rest =>
      obtain ⟨hfirst, hrest⟩ := List.cons.inj hall
      exact ⟨call, rest, rfl, hfirst, hrest⟩

/-- Every other one is that of a later call, with the edits before it accepted before it. -/
theorem exists_call_of_accepted_append {front back : List Edit}
    (hall : List.zipWith (Call.acceptedOn source) calls (workspace.run calls).1 =
      (front ++ edit :: back).map some) :
    ∃ before call rest, calls = before ++ call :: rest ∧
      List.zipWith (Call.acceptedOn source) before (workspace.run before).1 = front.map some ∧
      call.acceptedOn source ((workspace.after before).step call).1 = some edit := by
  induction front generalizing workspace calls with
  | nil =>
      obtain ⟨call, rest, rfl, hfirst, -⟩ := exists_call_of_accepted hall
      exact ⟨[], call, rest, rfl, rfl, hfirst⟩
  | cons first front ih =>
      obtain ⟨call, rest, rfl, hfirst, hrest⟩ := exists_call_of_accepted hall
      obtain ⟨before, next, later, rfl, hbefore, hnext⟩ := ih hrest
      exact ⟨call :: before, next, later, rfl, congrArg₂ List.cons hfirst hbefore, hnext⟩

theorem Call.isOwn_of_acceptedOn {call : Call} {reply : Reply}
    (h : call.acceptedOn source reply = some edit) : call.isOwn = true := by
  cases call with
  | onDocuments call => cases h
  | _ => rfl

theorem isOwn_of_accepted
    (hall : List.zipWith (Call.acceptedOn source) calls (workspace.run calls).1 =
      edits.map some) : ∀ call ∈ calls, call.isOwn = true := by
  induction edits generalizing workspace calls with
  | nil =>
      cases calls with
      | nil => exact fun _ hmem => by cases hmem
      | cons call rest => cases hall
  | cons edit more ih =>
      obtain ⟨call, rest, rfl, hfirst, hrest⟩ := exists_call_of_accepted hall
      exact List.forall_mem_cons.2 ⟨Call.isOwn_of_acceptedOn hfirst, ih hrest⟩

/-- After a run of accepted edits, the source has changed as often, no commit has happened, and the
inverses of the edits are staged.  Every offset of the source is carried over them. -/
theorem after_accepted (hpolicy : workspace.policy.commitOnEdit = false)
    (hactive : workspace.registry.activeFor? copy = some tracer) (hsource : tracer.source = source)
    (hopen : workspace.documents.find? source = some document)
    (hall : List.zipWith (Call.acceptedOn source) calls (workspace.run calls).1 =
      edits.map some)
    (hfits : workspace.FitsThrough calls) :
    ∃ edited, (workspace.after calls).documents.find? source = some edited ∧
      edited.modified.value = document.modified.value + edits.length ∧
      (workspace.after calls).policy = workspace.policy ∧
      (workspace.after calls).registry.activeFor? copy =
        some { tracer with staged := tracer.staged ++ edits.map Edit.inverse } ∧
      ∀ offset, offset ≤ document.length →
        ∃ moved : Nat, carryThrough edits offset = .ok moved ∧ moved ≤ edited.length := by
  induction edits generalizing workspace tracer document calls with
  | nil =>
      cases calls with
      | cons call rest => cases hall
      | nil =>
          refine ⟨document, hopen, rfl, rfl, ?_, ?_⟩
          · rw [List.map_nil, List.append_nil]
            exact hactive
          · intro offset hle
            exact ⟨offset, rfl, hle⟩
  | cons edit more ih =>
      obtain ⟨call, rest, rfl, haccepted, hrest⟩ := exists_call_of_accepted hall
      obtain ⟨edited, hedited, hmodified, hsame, hstaged, hcarry⟩ :=
        accepted_step hpolicy hactive hsource hopen haccepted hfits.1 hfits.2.fits
      obtain ⟨last, hlast, hmodifiedLast, hsameLast, hstagedLast, hcarryLast⟩ :=
        ih (hsame ▸ hpolicy) hstaged hsource hedited hrest hfits.2
      rw [after_cons]
      refine ⟨last, hlast, ?_, hsameLast.trans hsame, ?_, ?_⟩
      · rw [hmodifiedLast, hmodified, List.length_cons]
        omega
      · rw [hstagedLast]
        simp [Tracer.record]
      · intro offset hle
        obtain ⟨moved, hmoved, hin⟩ := hcarry offset hle
        obtain ⟨final, hfinal, hinFinal⟩ := hcarryLast moved hin
        refine ⟨final, ?_, hinFinal⟩
        simp only [carryThrough, hmoved]
        exact hfinal

/-- A commit with the default policy merges everything that the accepted edits have staged. -/
theorem commit_after_accepted (hpolicy : workspace.policy = .stampAdvanced)
    (hactive : workspace.registry.activeFor? copy = some tracer) (hsource : tracer.source = source)
    (hopen : workspace.documents.find? source = some document)
    (hnewer : tracer.staged = [] ∨ tracer.baseline < document.modified) :
    ∃ count committed, workspace.commit source = (.ok count, committed) ∧
      ∀ offset, committed.retrace ⟨copy, tracer.id⟩ offset =
        retraceThrough (tracer.log.entries ++ tracer.staged) offset := by
  rcases workspace.commit_cases source with ⟨hnone, -⟩ | ⟨found, count, hfound, heq⟩
  · rw [hopen] at hnone
    cases hnone
  · rw [hopen, Option.some.injEq] at hfound
    subst hfound
    refine ⟨count, _, heq, ?_⟩
    intro offset
    have hmerged := Tracer.entries_mergeStaged hnewer
    have hgrows := Tracer.Grows.mergeStaged tracer document.modified .stampAdvanced
    have hlive : (workspace.withCommit source document).tracer? ⟨copy, tracer.id⟩ =
        some (tracer.mergeStaged document.modified .stampAdvanced).2 := by
      have hactive' : (workspace.withCommit source document).registry.activeFor? copy =
          some (tracer.mergeStaged document.modified .stampAdvanced).2 := by
        rw [activeFor?_withCommit, hactive, Option.map_some, if_pos hsource, hpolicy]
      refine Option.filter_eq_some_iff.2 ⟨?_, ?_⟩
      · exact Registry.find?_eq_some_iff.2 ⟨hactive', hgrows.id_eq⟩
      · rw [hgrows.source, hsource, Store.contains, find?_documents_withCommit, if_pos rfl]
        rfl
    simp only [retrace, hlive, Tracer.retrace, Log.retrace, hmerged]

/-! ### Edits in front of the start -/

/-- Every edit of the source that the calls make ends at or before the named start of the session,
as it is when the edit is made.  It begins before this start, unless it may be `touching` it. -/
def EditsInFront (workspace : Workspace) (source : DocumentId) (handle : Handle)
    (touching : Prop) : List Call → Prop
  | [] => True
  | call :: rest =>
      (∀ edit ∈ call.acceptedOn source (workspace.step call).1,
        ∀ start ∈ (workspace.marks? handle).bind (·.find? .start),
          edit.offset + edit.removed.utf8ByteSize ≤ start ∧ (edit.offset < start ∨ touching)) ∧
        (workspace.step call).2.EditsInFront source handle touching rest

instance decidableEditsInFront (workspace : Workspace) (source : DocumentId) (handle : Handle)
    (touching : Prop) [Decidable touching] :
    (calls : List Call) → Decidable (workspace.EditsInFront source handle touching calls)
  | [] => isTrue trivial
  | call :: rest =>
      have := decidableEditsInFront (workspace.step call).2 source handle touching rest
      inferInstanceAs (Decidable (_ ∧ _))

/-- What this says of one call of a run. -/
theorem EditsInFront.ends_le {handle : Handle} {touching : Prop} {front back : List Call}
    {call : Call} (h : workspace.EditsInFront source handle touching (front ++ call :: back))
    (haccepted : call.acceptedOn source ((workspace.after front).step call).1 = some edit)
    {start : Nat}
    (hstart : ((workspace.after front).marks? handle).bind (·.find? .start) = some start) :
    edit.offset + edit.removed.utf8ByteSize ≤ start ∧ (edit.offset < start ∨ touching) := by
  induction front generalizing workspace with
  | nil => exact h.1 edit haccepted start hstart
  | cons first front ih => exact ih h.2 haccepted hstart

/-! ### A start, accepted edits and a commit -/

section

variable (h : workspace.Coherent) (hpolicy : workspace.policy = .stampAdvanced)
  (hopen : workspace.documents.find? source = some document)
  (hcut : document.cut span = .ok parts)
  (hstart : workspace.start source span replacement = (.ok completion, started))

include h hpolicy hopen hcut hstart

/-- After a start and accepted edits of the source, the tracer of the completion holds the edit that
made the copy and the inverses of the edits, all of them staged. -/
theorem Coherent.accepted_after_start
    (hall : List.zipWith (Call.acceptedOn source) calls (started.run calls).1 = edits.map some)
    (hfits : started.FitsThrough calls) :
    ∃ first edited, first = Tracer.start ⟨workspace.registry.lastGeneration + 1⟩ completion.copy
        source ⟨span.start, parts.inside, replacement⟩ document.committed ∧
      completion.handle = ⟨completion.copy, first.id⟩ ∧
      (started.after calls).registry.activeFor? completion.copy =
        some { first with staged := edits.map Edit.inverse } ∧
      (started.after calls).policy = .stampAdvanced ∧
      (started.after calls).documents.find? source = some edited ∧
      edited.modified.value = document.modified.value + edits.length ∧
      ∀ offset, offset ≤ document.length →
        ∃ moved : Nat, carryThrough edits offset = .ok moved ∧ moved ≤ edited.length := by
  obtain ⟨first, hfirst, -, hhandle, hactive, hsource, -, hsame⟩ :=
    h.start_eq_ok hopen hcut hstart
  have hdefault : started.policy = .stampAdvanced := hsame.trans hpolicy
  obtain ⟨edited, hedited, hmodified, hpolicyEnd, hactiveEnd, hcarry⟩ :=
    after_accepted (hdefault ▸ rfl) hactive (hfirst ▸ rfl) hsource hall hfits
  subst hfirst
  exact ⟨_, edited, rfl, hhandle, hactiveEnd, hpolicyEnd.trans hdefault, hedited, hmodified, hcarry⟩

/-- When a commit follows, the log of the tracer is the edit that made the copy and the inverses of
the edits. -/
theorem Coherent.retrace_committed
    (hall : List.zipWith (Call.acceptedOn source) later (started.run later).1 = edits.map some)
    (hfits : started.FitsThrough later) :
    ∃ count committed, (started.after later).commit source = (.ok count, committed) ∧
      (∀ offset, committed.retrace completion.handle offset =
        retraceThrough (⟨span.start, parts.inside, replacement⟩ :: edits.map Edit.inverse)
          offset) ∧
      ∀ offset, offset ≤ document.length →
        ∃ tracked : Nat, carryThrough edits offset = .ok tracked ∧ tracked ≤ Offset.limit := by
  obtain ⟨first, edited, rfl, hname, hactive, hdefault, hedited, hmodified, hcarry⟩ :=
    h.accepted_after_start hpolicy hopen hcut hstart hall hfits
  -- with an edit in between, the source has changed since the stamp that the tracer knows
  have hnewer : edits.map Edit.inverse = [] ∨ document.committed < edited.modified := by
    cases edits with
    | nil => exact Or.inl rfl
    | cons edit more =>
        refine Or.inr (Nat.lt_of_le_of_lt (h.sound.filed hopen).committed_le ?_)
        rw [hmodified, List.length_cons]
        omega
  obtain ⟨count, committed, hcommit, hanswers⟩ :=
    commit_after_accepted hdefault hactive rfl hedited hnewer
  refine ⟨count, committed, hcommit, ?_, ?_⟩
  · intro offset
    rw [hname]
    exact hanswers offset
  · intro offset hle
    obtain ⟨tracked, htracked, hin⟩ := hcarry offset hle
    exact ⟨tracked, htracked, Nat.le_trans hin (hfits.fits_after.length_le hedited)⟩

/-- The named start of the session is where the edits carry the start of the span to. -/
theorem Coherent.start_carried (htracked : workspace.Marked ∧ workspace.Tracked)
    (hall : List.zipWith (Call.acceptedOn source) calls (started.run calls).1 = edits.map some)
    (hfits : workspace.FitsThrough (.start source span replacement :: calls)) :
    ∃ reached : Nat, carryThrough edits span.start = .ok reached ∧
      ((started.after calls).marks? completion.handle).bind (·.find? .start) = some reached := by
  have hstep : (workspace.step (.start source span replacement)).2 = started :=
    congrArg Prod.snd hstart
  have hown : ∀ call ∈ Call.start source span replacement :: calls, call.isOwn = true :=
    List.forall_mem_cons.2 ⟨rfl, isOwn_of_accepted hall⟩
  have hcoherent := h.after hown
  have hkept := kept_tracked.after h hown hfits htracked
  rw [after_cons, hstep] at hcoherent hkept
  obtain ⟨first, edited, rfl, hname, hactive, -⟩ :=
    h.accepted_after_start hpolicy hopen hcut hstart hall (hstep ▸ hfits.2)
  have hfind : (started.after calls).registry.find? ⟨completion.copy, _⟩ = some _ :=
    Registry.find?_eq_some_iff.2 ⟨hactive, rfl⟩
  obtain ⟨marks, hmarks, removed, reached, stop, hremoved, hentries, hsettled, -⟩ :=
    hkept.2.exists_puts hcoherent (hcoherent.tracer?_eq.trans hfind)
  cases hremoved.symm.trans (Document.removedSpan_of_cut hcut (hfits.fits.length_le hopen))
  refine ⟨reached, ?_, ?_⟩
  · -- all that the tracer holds behind the creation of the copy is staged
    rw [← settleThrough_map_inverse]
    exact hsettled
  · rw [hname, hmarks, Option.bind_some, Table.find?, hentries]
    rfl

/-- Edits in front of the named start are passed by an offset that is not in front of the span. -/
theorem Coherent.passesBy_of_editsInFront (htracked : workspace.Marked ∧ workspace.Tracked)
    (hall : List.zipWith (Call.acceptedOn source) later (started.run later).1 = edits.map some)
    (hfits : workspace.FitsThrough (.start source span replacement :: later)) {origin moved : Nat}
    (hle : span.start ≤ origin)
    (hfront : started.EditsInFront source completion.handle (span.start < origin) later)
    (hmoved : carryThrough edits origin = .ok moved) : PassesBy (fun _ => true) edits origin := by
  obtain ⟨last, hlast, -⟩ := h.start_carried hpolicy hopen hcut hstart htracked hall hfits
  refine passesBy_of_ends hle hmoved hlast ?_
  intro front edit back reached heq hreached
  subst heq
  obtain ⟨before, call, rest, rfl, hbefore, haccepted⟩ := exists_call_of_accepted_append hall
  -- the run as far as this call
  have hfitsBefore : workspace.FitsThrough (.start source span replacement :: before) :=
    (fitsThrough_append.1 (List.cons_append ▸ hfits)).1
  obtain ⟨place, hplace, hmark⟩ :=
    h.start_carried hpolicy hopen hcut hstart htracked hbefore hfitsBefore
  rw [hreached, Except.ok.injEq] at hplace
  subst hplace
  exact hfront.ends_le haccepted hmark

end

/-! ### Answers -/

/-- **Answers after a commit.**  A completion is started in any state that calls of the workspace
reach, then edits of its source are accepted, one after the other, and then the source is
committed under the default policy.  The commit succeeds.  An offset of the copy that is never
strictly inside removed text on its way over the edits in reverse order has the answer of the
edit that made the copy at the end of this way.

An offset outside the replacement comes from an `origin` in the source, and its text is at `tracked`
when the edits have been made.  Up to the start of the span, let the edits that begin before the
offset stay in front of it in both orders, and the others behind it.  Behind the start of the span,
let all edits be in front of the named start when they are made, and in front of the offset in
reverse order.  Then the merged edits shift the offset by as much as its text, and the answer is the
tracked offset exactly if this does not take the offset past the edit that made the copy, which is
where it was before the edits, or if passing it makes no difference. -/
theorem retrace_after_commit (config : Config)
    (hown : ∀ call ∈ earlier, call.isOwn = true)
    (hopen : ((initial config .stampAdvanced).after earlier).documents.find? source =
      some document)
    (hcut : document.cut span = .ok parts)
    (hstart : ((initial config .stampAdvanced).after earlier).start source span replacement =
      (.ok completion, started))
    (hall : List.zipWith (Call.acceptedOn source) later (started.run later).1 = edits.map some)
    (hfits : (initial config .stampAdvanced).FitsThrough
      (earlier ++ .start source span replacement :: later)) :
    ∃ count committed, (started.after later).commit source = (.ok count, committed) ∧
      ∀ offset,
        (NeverCovered edits.reverse offset →
          committed.retrace completion.handle offset =
            (carryThrough edits.reverse offset).bind
              (Edit.retrace ⟨span.start, parts.inside, replacement⟩)) ∧
        (offset ≤ completion.text.utf8ByteSize →
          ¬ Edit.Covers ⟨span.start, replacement, parts.inside⟩ offset →
          ∃ origin tracked : Nat,
            Edit.retrace ⟨span.start, parts.inside, replacement⟩ offset = .ok (some origin) ∧
            carryThrough edits origin = .ok tracked ∧
            (offset + insertedSize edits ≤ Offset.limit →
              (offset ≤ span.start ∧ KeepsSides edits offset) ∨
                (span.start < offset ∧ PassesBy (fun _ => true) edits.reverse offset ∧
                  started.EditsInFront source completion.handle (span.start < origin) later) →
              ∃ replayed : Nat, carryThrough edits.reverse offset = .ok replayed ∧
                replayed + origin = tracked + offset ∧
                (committed.retrace completion.handle offset = .ok (some tracked) ↔
                  Edit.SameSide ⟨span.start, replacement, parts.inside⟩ offset replayed ∨
                    replacement.utf8ByteSize = parts.inside.utf8ByteSize ∧
                      ¬ Edit.Covers ⟨span.start, replacement, parts.inside⟩ replayed))) := by
  have hinitial := coherent_initial config .stampAdvanced
  have hcoherent := hinitial.after hown
  have hpolicy : ((initial config .stampAdvanced).after earlier).policy = .stampAdvanced :=
    hinitial.policy_after hown
  obtain ⟨hfitsEarlier, hfitsRun⟩ := fitsThrough_append.1 hfits
  have hkept := kept_tracked.after hinitial hown hfitsEarlier
    ⟨marked_initial config .stampAdvanced, tracked_initial config .stampAdvanced⟩
  have hfitsLater : started.FitsThrough later := by
    rw [show started = _ from (congrArg Prod.snd hstart).symm]
    exact hfitsRun.2
  obtain ⟨first, -, htext, -, -, hsource, hcopied, -⟩ := hcoherent.start_eq_ok hopen hcut hstart
  obtain ⟨count, committed, hcommit, hretrace, hcarry⟩ :=
    hcoherent.retrace_committed hpolicy hopen hcut hstart hall hfitsLater
  refine ⟨count, committed, hcommit, ?_⟩
  intro offset
  rw [hretrace]
  refine ⟨retraceThrough_creation_cons, ?_⟩
  intro hle hnot
  have hturns : Edit.Turns ⟨span.start, parts.inside, replacement⟩ document.text
      completion.text := by
    rw [htext]
    exact Document.turns_of_cut hcut
  have hbefore : document.text.utf8ByteSize ≤ Offset.limit := hfitsLater.fits.length_le hsource
  have hafter : completion.text.utf8ByteSize ≤ Offset.limit := by
    obtain ⟨copied, hfound, hcopiedText⟩ := Option.map_eq_some_iff.1 hcopied
    rw [← hcopiedText]
    exact hfitsLater.fits.length_le hfound
  have hinserted := Nat.le_trans hturns.inserted_le hafter
  obtain ⟨origin, horigin, hin⟩ := hturns.retrace_eq_ok hbefore hafter hle hnot
  obtain ⟨tracked, htracked, hlimit⟩ := hcarry origin hin
  refine ⟨origin, tracked, horigin, htracked, ?_⟩
  intro hroom hsides
  rcases hsides with ⟨hahead, hforth, hback⟩ | ⟨hbehind, hback, hfront⟩
  · -- up to the start of the span, the offset is its own origin
    cases horigin.symm.trans (Edit.retrace_of_le hinserted hahead)
    exact hforth.retraceThrough_eq_tracked_iff hback hinserted hnot horigin htracked hlimit hroom
  · have hpast : span.start ≤ origin := by
      rcases Edit.retrace_cases horigin with ⟨hahead, -⟩ | ⟨-, heq⟩ | ⟨hlt, hend, heq⟩ <;>
        simp only at * <;> omega
    have hforth := hcoherent.passesBy_of_editsInFront hpolicy hopen hcut hstart hkept hall hfitsRun
      hpast hfront htracked
    exact hforth.retraceThrough_eq_tracked_iff hback hinserted hnot horigin htracked hlimit hroom

/-- Text is inserted and then removed before the replaced span.  An offset between the two and the
span follows its text, and so does one behind the replacement.  The start of the span is shifted
into the replacement and does not. -/
theorem retrace_after_two_edits :
    let earlier : List Call := [.openDocument "/a" "abcdefgh"]
    let later : List Call := [.noteEdit ⟨0⟩ ⟨0, "", "zz"⟩, .edit ⟨0⟩ ⟨3, 4, Nat.le_succ 3⟩ ""]
    let edits : List Edit := [⟨0, "", "zz"⟩, ⟨3, "b", ""⟩]
    let workspace := (initial .default .stampAdvanced).after earlier
    let completion : Completion := ⟨⟨0⟩, ⟨1⟩, ⟨⟨1⟩, ⟨1⟩⟩, "abcdefXXXXgh"⟩
    let started := (workspace.start ⟨0⟩ ⟨6, 6, Nat.le_refl 6⟩ "XXXX").2
    let document : Document := .fresh ⟨0⟩ (some "/a") "abcdefgh" none
    (∀ call ∈ earlier, call.isOwn = true) ∧
      workspace.documents.find? ⟨0⟩ = some document ∧
      document.cut ⟨6, 6, Nat.le_refl 6⟩ = .ok ⟨"abcdef", "", "gh"⟩ ∧
      workspace.start ⟨0⟩ ⟨6, 6, Nat.le_refl 6⟩ "XXXX" = (.ok completion, started) ∧
      List.zipWith (Call.acceptedOn ⟨0⟩) later (started.run later).1 = edits.map some ∧
      (initial .default .stampAdvanced).FitsThrough
        (earlier ++ .start ⟨0⟩ ⟨6, 6, Nat.le_refl 6⟩ "XXXX" :: later) ∧
      KeepsSides edits 5 ∧ KeepsSides edits 6 ∧
      PassesBy (fun _ => true) edits.reverse 11 ∧
      started.EditsInFront ⟨0⟩ completion.handle (6 < 7) later ∧
      ∃ count committed, (started.after later).commit ⟨0⟩ = (.ok count, committed) ∧
        carryThrough edits 5 = .ok 6 ∧ committed.retrace completion.handle 5 = .ok (some 6) ∧
        carryThrough edits 7 = .ok 8 ∧ committed.retrace completion.handle 11 = .ok (some 8) ∧
        carryThrough edits 6 = .ok 7 ∧ committed.retrace completion.handle 6 ≠ .ok (some 7) := by
  intro earlier later edits workspace completion started document
  have hown : ∀ call ∈ earlier, call.isOwn = true := by decide
  have hopen : workspace.documents.find? ⟨0⟩ = some document := by decide
  have hcut : document.cut ⟨6, 6, Nat.le_refl 6⟩ = .ok ⟨"abcdef", "", "gh"⟩ :=
    Document.cut_eq_ok_iff.2 (Text.cut_eq_ok_iff.2 (by decide))
  have hstart : workspace.start ⟨0⟩ ⟨6, 6, Nat.le_refl 6⟩ "XXXX" = (.ok completion, started) := rfl
  have hall : List.zipWith (Call.acceptedOn ⟨0⟩) later (started.run later).1 =
      edits.map some := by decide
  have hfits : (initial .default .stampAdvanced).FitsThrough
      (earlier ++ .start ⟨0⟩ ⟨6, 6, Nat.le_refl 6⟩ "XXXX" :: later) := by decide
  have hfive : KeepsSides edits 5 := by decide
  have hsix : KeepsSides edits 6 := by decide
  have hback : PassesBy (fun _ => true) edits.reverse 11 := by decide
  have hfront : started.EditsInFront ⟨0⟩ completion.handle (6 < 7) later := by decide
  refine ⟨hown, hopen, hcut, hstart, hall, hfits, hfive, hsix, hback, hfront, ?_⟩
  obtain ⟨count, committed, hcommit, hanswers⟩ :=
    retrace_after_commit .default hown hopen hcut hstart hall hfits
  refine ⟨count, committed, hcommit, rfl, ?_, rfl, ?_, rfl, ?_⟩
  · obtain ⟨origin, tracked, horigin, htracked, hfollows⟩ :=
      (hanswers 5).2 (by decide) (by decide)
    cases horigin
    cases htracked
    obtain ⟨replayed, hreplayed, -, hiff⟩ := hfollows (by decide) (Or.inl ⟨by decide, hfive⟩)
    cases hreplayed
    exact hiff.2 (by decide)
  · obtain ⟨origin, tracked, horigin, htracked, hfollows⟩ :=
      (hanswers 11).2 (by decide) (by decide)
    cases horigin
    cases htracked
    obtain ⟨replayed, hreplayed, -, hiff⟩ :=
      hfollows (by decide) (Or.inr ⟨by decide, hback, hfront⟩)
    cases hreplayed
    exact hiff.2 (by decide)
  · obtain ⟨origin, tracked, horigin, htracked, hfollows⟩ :=
      (hanswers 6).2 (by decide) (by decide)
    cases horigin
    cases htracked
    obtain ⟨replayed, hreplayed, -, hiff⟩ := hfollows (by decide) (Or.inl ⟨by decide, hsix⟩)
    cases hreplayed
    exact fun hanswer => absurd (hiff.1 hanswer) (by decide)

/-- An answer that is not where the text has gone: two lines are inserted at the front, and they
shift the offset into the replacement.  The answer is the place that the replaced span had before
them. -/
theorem retrace_after_commit_ne_tracked :
    let workspace := (initial .default .stampAdvanced).after
      [.openDocument "/a" "fn main() \x7b foo. \x7d"]
    let creation : Edit := ⟨16, "", "CompletionDummyIdent"⟩
    let edits : List Edit := [⟨0, "", "// header\n"⟩, ⟨0, "", "\n"⟩]
    let calls := edits.map (Call.noteEdit ⟨0⟩)
    let completion : Completion :=
      ⟨⟨0⟩, ⟨1⟩, ⟨⟨1⟩, ⟨1⟩⟩, "fn main() \x7b foo.CompletionDummyIdent \x7d"⟩
    let started := (workspace.start ⟨0⟩ ⟨16, 16, Nat.le_refl 16⟩ "CompletionDummyIdent").2
    workspace.start ⟨0⟩ ⟨16, 16, Nat.le_refl 16⟩ "CompletionDummyIdent" =
        (.ok completion, started) ∧
      List.zipWith (Call.acceptedOn ⟨0⟩) calls (started.run calls).1 = edits.map some ∧
      started.EditsInFront ⟨0⟩ completion.handle False calls ∧
      ¬ creation.inverse.Covers 12 ∧ creation.retrace 12 = .ok (some 12) ∧
      NeverCovered edits 12 ∧ carryThrough edits 12 = .ok 23 ∧
      ∃ count committed, (started.after calls).commit ⟨0⟩ = (.ok count, committed) ∧
        committed.retrace completion.handle 12 = .ok (some 16) ∧
        committed.retrace completion.handle 12 ≠ .ok (some 23) := by
  intro workspace creation edits calls completion started
  have hanswer :
      ((started.after calls).commit ⟨0⟩).2.retrace completion.handle 12 = .ok (some 16) := rfl
  refine ⟨rfl, by decide, by decide, by decide, rfl, by decide, rfl, _, _, rfl, hanswer, ?_⟩
  intro htracked
  cases hanswer.symm.trans htracked

end Retrace.Workspace
