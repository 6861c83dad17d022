import Retrace.Proofs.Completion.Isolation

/-!
# Answers between two commits

Three things answer where a place of the copy is: the log of the tracer, the lines that the session
keeps, and the text of the copy (`SameView`).  Edits of the source change its text, the staged edits
and the named offsets, but none of these three.  So if the policy does not commit on its own, the
answers stay as they are until the source is committed or the session ends
(`retrace_of_uncommitted`).
-/

namespace Retrace.Workspace

variable {workspace middle changed : Workspace} {source copy id : DocumentId} {document : Document}
  {tracer : Tracer} {handle : Handle} {call : Call} {calls : List Call}

/-- What the answers for a copy are taken from is the same. -/
structure SameView (workspace changed : Workspace) (copy : DocumentId) : Prop where
  log : (changed.registry.activeFor? copy).map Tracer.log =
    (workspace.registry.activeFor? copy).map Tracer.log
  frame : (changed.sessions.find? copy).map Session.frame =
    (workspace.sessions.find? copy).map Session.frame
  text : changed.text? copy = workspace.text? copy

namespace SameView

theorem refl (workspace : Workspace) (copy : DocumentId) : workspace.SameView workspace copy :=
  ⟨rfl, rfl, rfl⟩

theorem trans (h : workspace.SameView middle copy) (h' : middle.SameView changed copy) :
    workspace.SameView changed copy :=
  ⟨h'.log.trans h.log, h'.frame.trans h.frame, h'.text.trans h.text⟩

/-- While a handle is live, its answers are determined by the view of its copy. -/
theorem retrace_eq (hsame : workspace.SameView changed handle.copy) (h : workspace.Coherent)
    (h' : changed.Coherent) (hlive : workspace.LiveOn handle source)
    (hlive' : changed.LiveOn handle source) :
    (∀ offset, changed.retrace handle offset = workspace.retrace handle offset) ∧
      (∀ span, changed.retraceSpan handle span = workspace.retraceSpan handle span) ∧
      ∀ position, changed.retracePosition handle position =
        workspace.retracePosition handle position := by
  obtain ⟨old, hold, -⟩ := hlive
  obtain ⟨new, hnew, -⟩ := hlive'
  obtain ⟨hactive, -⟩ := Registry.find?_eq_some_iff.1 hold
  obtain ⟨hactive', -⟩ := Registry.find?_eq_some_iff.1 hnew
  obtain ⟨session, hsession, -⟩ := h.exists_session hactive
  obtain ⟨session', hsession', -⟩ := h'.exists_session hactive'
  obtain ⟨copied, hcopied, -⟩ := h.tracer_open hactive
  obtain ⟨copied', hcopied', -⟩ := h'.tracer_open hactive'
  have hlog : new.log = old.log := by
    have hmap := hsame.log
    rw [hactive, hactive', Option.map_some, Option.map_some, Option.some.injEq] at hmap
    exact hmap
  have hframe : session'.frame = session.frame := by
    have hmap := hsame.frame
    rw [hsession, hsession', Option.map_some, Option.map_some, Option.some.injEq] at hmap
    exact hmap
  have hlines : copied'.lines = copied.lines := by
    have hmap := hsame.text
    rw [text?_of_open hcopied, text?_of_open hcopied', Option.some.injEq] at hmap
    unfold Document.lines
    rw [hmap]
  have hfound : workspace.tracer? handle = some old := h.tracer?_eq.trans hold
  have hfound' : changed.tracer? handle = some new := h'.tracer?_eq.trans hnew
  refine ⟨?_, ?_, ?_⟩
  · intro offset
    simp only [retrace, hfound, hfound', Tracer.retrace, hlog]
  · intro span
    simp only [retraceSpan, hfound, hfound', Tracer.retraceSpan, hlog]
  · intro position
    simp only [retracePosition, hfound, hfound', hsession, hsession', hcopied, hcopied', hlines,
      Tracer.retrace, hlog, hframe]

end SameView

/-! ### Calls one by one -/

/-- A call that is not about the source of a live tracer does not touch the view of the copy. -/
theorem SameOn.sameView (hsame : workspace.SameOn changed source) (h : workspace.Coherent)
    (hactive : workspace.registry.activeFor? copy = some tracer)
    (hsource : tracer.source = source) : workspace.SameView changed copy := by
  obtain ⟨session, hsession, hon⟩ := h.exists_session hactive
  obtain ⟨copied, hcopied, hof⟩ := h.tracer_open hactive
  rw [hsource] at hon hof
  refine ⟨?_, ?_, ?_⟩
  · rw [hactive, (hsame.tracer hsource).2 hactive]
  · rw [hsession, (hsame.session hon).2 hsession]
  · rw [text?_of_open hcopied, text?_of_open ((hsame.copied hof).2 hcopied)]

theorem sameView_withEdit {edit : Edit} {edited : Document} (hne : copy ≠ id) :
    workspace.SameView (workspace.withEdit id edit edited) copy := by
  refine ⟨?_, ?_, ?_⟩
  · rw [activeFor?_withEdit, Option.map_map]
    congr 1
    funext tracer
    simp only [Function.comp_apply]
    split <;> rfl
  · rcases Table.find?_sweep workspace.sessions (Session.carry id edit) copy with heq | heq
    · exact congrArg (Option.map Session.frame) heq
    · refine (congrArg (Option.map Session.frame) heq).trans ?_
      rw [Option.map_map]
      congr 1
      funext session
      simp only [Function.comp_apply, Session.carry]
      split <;> rfl
  · rw [text?, find?_documents_withEdit, if_neg hne]
    rfl

/-- The commit of another document merges nothing into the tracer. -/
theorem Coherent.sameView_withCommit (h : workspace.Coherent)
    (hactive : workspace.registry.activeFor? copy = some tracer)
    (hopen : workspace.documents.find? id = some document) (hne : tracer.source ≠ id) :
    workspace.SameView (workspace.withCommit id document) copy := by
  have hkept : (workspace.withCommit id document).registry.activeFor? copy = some tracer := by
    rw [activeFor?_withCommit, hactive, Option.map_some, if_neg hne]
  refine ⟨by rw [hactive, hkept], ?_, text?_withCommit hopen⟩
  obtain ⟨session, hsession, -⟩ := h.exists_session hactive
  rw [find?_sessions_withCommit, hsession, Option.map_some, refreshed_of_ne hkept hne]

theorem Coherent.sameView_noteEdit (h : workspace.Coherent)
    (hpolicy : workspace.policy.commitOnEdit = false)
    (hactive : workspace.registry.activeFor? copy = some tracer) {edit : Edit} :
    workspace.SameView (workspace.noteEdit id edit).2 copy := by
  rcases workspace.noteEdit_cases id edit with
    ⟨failure, heq⟩ | ⟨document, edited, hopen, hnocopy, -, hmade⟩
  · rw [heq]
    exact .refl workspace copy
  · -- an edit is made in a document that is no copy
    obtain ⟨copied, hcopied, hof⟩ := h.tracer_open hactive
    have hne : copy ≠ id := ne_of_copyOf_ne hcopied hopen (by simp [hof, hnocopy])
    rcases hmade with ⟨fault, -, heq⟩ | ⟨-, heq⟩ | ⟨hcommits, -⟩
    · rw [heq]
      exact sameView_withEdit hne
    · rw [heq]
      exact sameView_withEdit hne
    · rw [hpolicy] at hcommits
      cases hcommits

theorem Coherent.sameView_start (h : workspace.Coherent)
    (hlive : workspace.LiveOn handle source) {span : Span} {replacement : String}
    (hafter : (workspace.start source span replacement).2.LiveOn handle source) :
    workspace.SameView (workspace.start source span replacement).2 handle.copy := by
  obtain ⟨tracer, hactive, hid, -⟩ := liveOn_iff.1 hlive
  have hissued : handle.generation.number ≤ workspace.registry.lastGeneration :=
    hid ▸ h.generation_le hactive
  rcases workspace.start_cases source span replacement with
    ⟨refusal, heq⟩ | ⟨document, parts, copy, placed, -, -, -, -, heq⟩
  · rw [heq]
    exact .refl workspace handle.copy
  · -- a completion that is started supersedes the one of the handle
    have hsuperseded := ((h.liveOn_start hissued).1 hafter).2
    rw [heq] at hsuperseded
    exact absurd rfl (hsuperseded _ rfl)

/-- A call that neither commits the source of a live handle nor ends its session does not touch the
view of its copy. -/
theorem Coherent.sameView_step (h : workspace.Coherent) (hown : call.isOwn = true)
    (hpolicy : workspace.policy.commitOnEdit = false) (hlive : workspace.LiveOn handle source)
    (hafter : (workspace.step call).2.LiveOn handle source) (hcommit : call ≠ .commit source) :
    workspace.SameView (workspace.step call).2 handle.copy := by
  obtain ⟨tracer, hactive, hid, hsource⟩ := liveOn_iff.1 hlive
  obtain ⟨original, copied, horiginal, hnocopy, hcopied, hof⟩ := h.documents_of_liveOn hlive
  have hlisted : workspace.copies.find? source = some handle.copy := h.copy_listed hcopied hof
  by_cases hconcerns : call.Concerns workspace source
  · cases call with
    | openDocument path text => exact absurd hconcerns (h.liveOn_openDocument.1 hafter).2
    | closeDocument id =>
        obtain ⟨-, hneSource, hneCopy⟩ := h.liveOn_closeDocument.1 hafter
        rcases hconcerns with hid | hid
        · exact absurd hid hneSource
        · rw [hlisted, Option.some.injEq] at hid
          exact absurd hid.symm hneCopy
    | noteEdit id edit => exact h.sameView_noteEdit hpolicy hactive
    | edit id span text =>
        simp only [Workspace.step]
        rcases workspace.edit_cases id span text with ⟨refusal, heq⟩ | ⟨found, parts, -, -, heq⟩
        · rw [heq]
          exact .refl workspace handle.copy
        · rw [heq]
          exact h.sameView_noteEdit hpolicy hactive
    | commit id =>
        simp only [Workspace.step]
        have hne : source ≠ id := by
          rintro rfl
          exact hcommit rfl
        rcases workspace.commit_cases id with ⟨-, heq⟩ | ⟨found, count, hopen, heq⟩
        · rw [heq]
          exact .refl workspace handle.copy
        · rw [heq]
          exact h.sameView_withCommit hactive hopen (hsource ▸ hne)
    | start id span replacement =>
        cases hconcerns
        exact h.sameView_start hlive hafter
    | startAt id caret =>
        cases hconcerns
        simp only [Workspace.step] at hafter ⊢
        rcases workspace.startAt_cases source caret with ⟨failure, heq⟩ | ⟨found, span, -, -, heq⟩
        · rw [heq]
          exact .refl workspace handle.copy
        · rw [heq] at hafter ⊢
          exact h.sameView_start hlive hafter
    | dispose disposed =>
        -- only one handle is live on the source
        obtain ⟨-, hne⟩ := liveOn_dispose.1 hafter
        obtain ⟨found, hfound, hid', hto⟩ := liveOn_iff.1 hconcerns
        obtain ⟨copied', hcopied', hof'⟩ := h.tracer_open hfound
        have hcopy : disposed.copy = handle.copy := by
          have hlisted' := h.copy_listed hcopied' (hto ▸ hof')
          rw [hlisted, Option.some.injEq] at hlisted'
          exact hlisted'.symm
        rw [hcopy, hactive, Option.some.injEq] at hfound
        subst hfound
        have hsame : disposed = handle := by
          cases disposed
          cases handle
          cases hcopy
          cases hid.symm.trans hid'
          rfl
        exact absurd hsame hne
    | disposeAll => exact absurd hafter not_liveOn_disposeAll
    | onDocuments call => cases hown
  · exact (h.sameOn_step horiginal hnocopy hconcerns).sameView h hactive hsource

/-! ### Runs -/

theorem Coherent.sameView_after (h : workspace.Coherent)
    (hown : ∀ call ∈ calls, call.isOwn = true) (hpolicy : workspace.policy.commitOnEdit = false)
    (hlive : workspace.LiveOn handle source)
    (hafter : (workspace.after calls).LiveOn handle source)
    (hcommit : Call.commit source ∉ calls) :
    workspace.SameView (workspace.after calls) handle.copy := by
  induction calls generalizing workspace with
  | nil => exact .refl workspace handle.copy
  | cons call rest ih =>
      rw [List.forall_mem_cons] at hown
      rw [List.mem_cons, not_or] at hcommit
      have hstep := h.step hown.1
      have hissued : handle.generation.number ≤ workspace.registry.lastGeneration := by
        obtain ⟨tracer, hactive, hid, -⟩ := liveOn_iff.1 hlive
        exact hid ▸ h.generation_le hactive
      obtain ⟨event, -, hadvances⟩ := h.step_advances hown.1
      -- a handle that is live at the end was live all the time
      have hmiddle : (workspace.step call).2.LiveOn handle source :=
        ((hstep.liveOn_after hown.2
          (Nat.le_trans hissued hadvances.lastGeneration_le)).1 hafter).1
      have hview := h.sameView_step hown.1 hpolicy hlive hmiddle (Ne.symm hcommit.1)
      exact hview.trans
        (ih hstep hown.2 ((workspace.policy_step call).symm ▸ hpolicy) hmiddle hafter hcommit.2)

/-- **Edits that are not committed change no answer.**  The policy does not commit after edits, and
a handle is live in a state that calls of the workspace reach.  Any calls follow, accepted or not,
but none of them commits the source of the handle or ends its session.  Then the handle is still
live, and every offset, every span and every position of the copy is answered as before. -/
theorem retrace_of_uncommitted (config : Config) {policy : CommitPolicy}
    (hpolicy : policy.commitOnEdit = false) {earlier later : List Call}
    (hown : ∀ call ∈ earlier ++ later, call.isOwn = true)
    (hlive : ((initial config policy).after earlier).tracer? handle = some tracer)
    (hcommit : Call.commit tracer.source ∉ later)
    (hends : ∀ made ∈ later.zip (((initial config policy).after earlier).run later).1,
      made.1.ends handle tracer.source
        (((initial config policy).after earlier).path? tracer.source) made.2 = false) :
    let before := (initial config policy).after earlier
    let workspace := before.after later
    workspace.isUpToDate handle = true ∧
      (∀ offset, workspace.retrace handle offset = before.retrace handle offset) ∧
      (∀ span, workspace.retraceSpan handle span = before.retraceSpan handle span) ∧
      ∀ position, workspace.retracePosition handle position =
        before.retracePosition handle position := by
  intro before workspace
  obtain ⟨hearlier, hlater⟩ := List.forall_mem_append.1 hown
  have h : before.Coherent := (coherent_initial config policy).after hearlier
  have h' : workspace.Coherent := h.after hlater
  have hon : before.LiveOn handle tracer.source := ⟨tracer, h.tracer?_eq.symm.trans hlive, rfl⟩
  have hissued : handle.generation.number ≤ before.registry.lastGeneration := by
    obtain ⟨found, hactive, hid, -⟩ := liveOn_iff.1 hon
    exact hid ▸ h.generation_le hactive
  have hafter : workspace.LiveOn handle tracer.source :=
    (h.liveOn_after hlater hissued).2 ⟨hon, hends⟩
  have hchosen : before.policy = policy := policy_after (initial config policy) earlier
  have hview : before.SameView workspace handle.copy :=
    h.sameView_after hlater (hchosen.symm ▸ hpolicy) hon hafter hcommit
  exact ⟨h'.isUpToDate_iff.2 ⟨tracer.source, hafter⟩, hview.retrace_eq h h' hon hafter⟩

/-- Two lines are put in front, an edit is refused, a start fails, and another document is edited
and committed.  A place in the second line of the copy stays in the third line of the source, which
is where it was after the last commit. -/
theorem retracePosition_of_uncommitted_lines :
    let earlier : List Call := [.openDocument "/a" "ab\ncd", .openDocument "/b" "x",
      .start ⟨0⟩ ⟨4, 4, Nat.le_refl 4⟩ "X", .edit ⟨0⟩ ⟨0, 0, Nat.le_refl 0⟩ "é\n", .commit ⟨0⟩]
    let later : List Call := [.edit ⟨0⟩ ⟨0, 0, Nat.le_refl 0⟩ "\n\n", .noteEdit ⟨0⟩ ⟨0, "q", ""⟩,
      .start ⟨1⟩ ⟨0, 1, Nat.zero_le 1⟩ "Y", .edit ⟨1⟩ ⟨0, 1, Nat.zero_le 1⟩ "", .commit ⟨1⟩,
      .commit ⟨2⟩, .start ⟨0⟩ ⟨99, 99, Nat.le_refl 99⟩ "Z"]
    let handle : Handle := ⟨⟨2⟩, ⟨1⟩⟩
    let tracer : Tracer := ⟨⟨1⟩, ⟨2⟩, ⟨0⟩, ⟨⟨4, "", "X"⟩, [⟨0, "é\n", ""⟩]⟩, [], ⟨1⟩⟩
    let before := (initial .default .stampAdvanced).after earlier
    CommitPolicy.stampAdvanced.commitOnEdit = false ∧
      (∀ call ∈ earlier ++ later, call.isOwn = true) ∧ before.tracer? handle = some tracer ∧
      Call.commit tracer.source ∉ later ∧
      (∀ made ∈ later.zip (before.run later).1,
        made.1.ends handle tracer.source (before.path? tracer.source) made.2 = false) ∧
      (before.after later).text? ⟨0⟩ = some "\n\né\nab\ncd" ∧
      (before.after later).isUpToDate handle = true ∧
      (before.after later).retracePosition handle ⟨1, 2⟩ = .ok (some ⟨2, 1⟩) := by
  intro earlier later handle tracer before
  have hpolicy : CommitPolicy.stampAdvanced.commitOnEdit = false := rfl
  have hown : ∀ call ∈ earlier ++ later, call.isOwn = true := by decide
  have hlive : before.tracer? handle = some tracer := by decide
  have hcommit : Call.commit tracer.source ∉ later := by decide
  have hends : ∀ made ∈ later.zip (before.run later).1,
      made.1.ends handle tracer.source (before.path? tracer.source) made.2 = false := by decide
  obtain ⟨hstill, -, -, hposition⟩ :=
    retrace_of_uncommitted .default hpolicy hown hlive hcommit hends
  refine ⟨hpolicy, hown, hlive, hcommit, hends, by decide, hstill, ?_⟩
  refine (hposition ⟨1, 2⟩).trans ?_
  rfl

end Retrace.Workspace
