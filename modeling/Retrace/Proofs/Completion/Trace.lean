import Retrace.Proofs.Completion.Step

/-!
# Where a live tracer comes from

A tracer that is live after a call was live before it and has not been touched, or it was live
and has staged the edit that was made, or this call has started it (`Followed`).  In each case
it is known what became of the two texts that the tracer relates: the text of a copy does not
change as long as its tracer lives, and the text of the source changes by edits only.
-/

namespace Retrace.Workspace

variable {workspace middle changed : Workspace} {source copy id : DocumentId}
  {tracer : Tracer} {document : Document} {event : Option Event}

/-- The text of an open document. -/
def text? (workspace : Workspace) (id : DocumentId) : Option String :=
  (workspace.documents.find? id).map Document.text

theorem text?_of_open (hopen : workspace.documents.find? id = some document) :
    workspace.text? id = some document.text := by
  rw [text?, hopen]
  rfl

/-- How the tracer of a copy came out of a change. -/
inductive Followed (workspace changed : Workspace) (event : Option Event) (copy : DocumentId)
    (tracer : Tracer) : Prop
  /-- It was there, and nothing happened to its source. -/
  | stays {old : Tracer} (hold : workspace.registry.activeFor? copy = some old)
      (hgrows : old.Grows tracer []) (hevent : ∀ edit, event ≠ some (.edited old.source edit))
      (hsource : changed.text? old.source = workspace.text? old.source)
      (hcopy : changed.text? copy = workspace.text? copy)
  /-- It was there, and its source was edited. -/
  | grows {old : Tracer} {edit : Edit} {before after : String}
      (hold : workspace.registry.activeFor? copy = some old) (hgrows : old.Grows tracer [edit])
      (hevent : event = some (.edited old.source edit))
      (hbefore : workspace.text? old.source = some before)
      (hafter : changed.text? old.source = some after) (hturns : edit.Turns before after)
      (hcopy : changed.text? copy = workspace.text? copy)
  /-- It was started. -/
  | begins {first : Tracer} {source : DocumentId} {span : Span} {parts : Text.Cut}
      {replacement : String} {document : Document}
      (hevent : event = some (.started first (parts.replace replacement)))
      (hgrows : first.Grows tracer []) (hcut : document.cut span = .ok parts)
      (hfirst : first = .start ⟨workspace.registry.lastGeneration + 1⟩ copy source
        ⟨span.start, parts.inside, replacement⟩ document.committed)
      (hsource : changed.text? source = some document.text)
      (hcopy : changed.text? copy = some (parts.replace replacement))

/-- Both texts that a live tracer relates are those of open documents, and the source is no
copy. -/
theorem Coherent.exists_documents (h : workspace.Coherent)
    (hactive : workspace.registry.activeFor? copy = some tracer) :
    ∃ original copied, workspace.documents.find? tracer.source = some original ∧
      original.copyOf = none ∧ workspace.documents.find? copy = some copied ∧
      copied.copyOf = some tracer.source := by
  obtain ⟨copied, hcopied, hof⟩ := h.tracer_open hactive
  obtain ⟨original, horiginal, hnocopy⟩ := h.source_open hcopied hof
  exact ⟨original, copied, horiginal, hnocopy, hcopied, hof⟩

theorem text?_withCommit (hopen : workspace.documents.find? source = some document) :
    (workspace.withCommit source document).text? id = workspace.text? id := by
  rw [text?, find?_documents_withCommit]
  split
  · next heq =>
      rw [heq, text?_of_open hopen]
      rfl
  · rfl

theorem Coherent.followed_started (h : workspace.Coherent) {span : Span} {parts : Text.Cut}
    {replacement : String} {placed : Workspace} {first : Tracer} {session : Session}
    (hopen : workspace.documents.find? source = some document) (hnocopy : document.copyOf = none)
    (hcut : document.cut span = .ok parts)
    (hplaced : Placed workspace source (parts.replace replacement) id placed)
    (hfirst : first = .start ⟨workspace.registry.lastGeneration + 1⟩ id source
      ⟨span.start, parts.inside, replacement⟩ document.committed)
    (hactive : (placed.withTracer first session).registry.activeFor? copy = some tracer) :
    Followed workspace (placed.withTracer first session)
      (some (.started first (parts.replace replacement))) copy tracer := by
  obtain ⟨made, hmade, -, hfind⟩ := hplaced.exists_copy h
  have hkept : ∀ {other}, other ≠ id →
      (placed.withTracer first session).text? other = workspace.text? other := by
    intro other hne
    exact congrArg (Option.map Document.text) ((hfind other).trans (if_neg hne))
  have hid : first.copy = id := by
    rw [hfirst]
    rfl
  rw [activeFor?_withTracer, hid, hplaced.registry] at hactive
  split at hactive
  · next heq =>
      cases hactive
      subst heq
      refine .begins rfl (.refl _) hcut hfirst ?_ ?_
      · rw [hkept (hplaced.ne_of_copyOf h hopen hnocopy), text?_of_open hopen]
      · rw [← hmade]
        exact congrArg (Option.map Document.text) ((hfind copy).trans (if_pos rfl))
  · next hne =>
      obtain ⟨original, copied, horiginal, hof, -, -⟩ := h.exists_documents hactive
      exact .stays hactive (.refl _) (fun _ heq => by cases heq)
        (hkept (hplaced.ne_of_copyOf h horiginal hof)) (hkept hne)

/-- What a successful start leaves behind. -/
theorem Coherent.start_eq_ok (h : workspace.Coherent) {span : Span} {replacement : String}
    {completion : Completion} {started : Workspace} {document : Document} {parts : Text.Cut}
    (hopen : workspace.documents.find? source = some document)
    (hcut : document.cut span = .ok parts)
    (hstart : workspace.start source span replacement = (.ok completion, started)) :
    ∃ first, first = Tracer.start ⟨workspace.registry.lastGeneration + 1⟩ completion.copy source
        ⟨span.start, parts.inside, replacement⟩ document.committed ∧
      completion.text = parts.replace replacement ∧
      completion.handle = first.handle ∧
      started.registry.activeFor? completion.copy = some first ∧
      started.documents.find? source = some document ∧
      started.text? completion.copy = some completion.text ∧
      started.policy = workspace.policy := by
  rcases workspace.start_cases source span replacement with
    ⟨refusal, heq⟩ | ⟨document', parts', copy, placed, hopen', hnocopy, hcut', hplaced, heq⟩
  · rw [heq] at hstart
    cases hstart
  · rw [hopen, Option.some.injEq] at hopen'
    subst hopen'
    rw [hcut, Except.ok.injEq] at hcut'
    subst hcut'
    rw [heq] at hstart
    cases hstart
    obtain ⟨made, hmade, -, hfind⟩ := hplaced.exists_copy h
    refine ⟨_, rfl, rfl, rfl, ?_, ?_, ?_, hplaced.policy⟩
    · rw [activeFor?_withTracer]
      exact if_pos rfl
    · exact hplaced.find?_eq_some h hopen hnocopy
    · rw [← hmade]
      exact congrArg (Option.map Document.text) ((hfind copy).trans (if_pos rfl))

/-- What one change can do to the tracer of a copy. -/
theorem Coherent.followed_change (h : workspace.Coherent)
    (hchange : Change workspace event changed)
    (hactive : changed.registry.activeFor? copy = some tracer) :
    Followed workspace changed event copy tracer := by
  cases hchange with
  | shrunk hshrinks =>
      obtain ⟨original, copied, horiginal, -, hcopied, -⟩ :=
        (hshrinks.coherent h).exists_documents hactive
      refine .stays (hshrinks.activeFor?_eq_some hactive) (.refl _) (fun _ heq => by cases heq)
        ?_ ?_
      · rw [text?_of_open horiginal, text?_of_open (hshrinks.find?_eq_some horiginal)]
      · rw [text?_of_open hcopied, text?_of_open (hshrinks.find?_eq_some hcopied)]
  | opened hfree =>
      obtain ⟨original, copied, horiginal, -, hcopied, -⟩ := h.exists_documents hactive
      refine .stays hactive (.refl _) (fun _ heq => by cases heq) ?_ ?_
      · rw [text?, Store.find?_openFresh, if_neg (h.sound.ne_next horiginal)]
        rfl
      · rw [text?, Store.find?_openFresh, if_neg (h.sound.ne_next hcopied)]
        rfl
  | rewritten hopen hnocopy hidle =>
      obtain ⟨original, copied, -, -, hcopied, hof⟩ := h.exists_documents hactive
      have hne := ne_of_copyOf_ne hcopied hopen (by simp [hof, hnocopy])
      refine .stays hactive (.refl _) (fun _ heq => by cases heq) ?_ ?_
      · rw [text?, Store.find?_put, if_neg (hidle hactive)]
        rfl
      · rw [text?, Store.find?_put, if_neg hne]
        rfl
  | @edited source edit document edited hopen hnocopy happly =>
      rw [activeFor?_withEdit] at hactive
      obtain ⟨old, hold, rfl⟩ := Option.map_eq_some_iff.1 hactive
      obtain ⟨original, copied, -, -, hcopied, hof⟩ := h.exists_documents hold
      have hne := ne_of_copyOf_ne hcopied hopen (by simp [hof, hnocopy])
      have hcopy : (workspace.withEdit source edit edited).text? copy = workspace.text? copy := by
        rw [text?, find?_documents_withEdit, if_neg hne]
        rfl
      by_cases hsource : old.source = source
      · obtain ⟨-, text, hturns, hedited⟩ := Document.apply_eq_ok_iff.1 happly
        rw [if_pos hsource]
        refine .grows hold (.record old edit) (by rw [hsource]) ?_ ?_ hturns hcopy
        · rw [hsource, text?_of_open hopen]
        · rw [text?, find?_documents_withEdit, if_pos hsource, hedited]
          rfl
      · rw [if_neg hsource]
        refine .stays hold (.refl _) ?_ ?_ hcopy
        · intro other heq
          cases heq
          exact hsource rfl
        · rw [text?, find?_documents_withEdit, if_neg hsource]
          rfl
  | committed hopen =>
      rw [activeFor?_withCommit] at hactive
      obtain ⟨old, hold, rfl⟩ := Option.map_eq_some_iff.1 hactive
      refine .stays hold ?_ (fun _ heq => by cases heq) (text?_withCommit hopen)
        (text?_withCommit hopen)
      split
      · exact .mergeStaged old _ _
      · exact .refl old
  | started hopen hnocopy hcut hplaced hfirst =>
      exact h.followed_started hopen hnocopy hcut hplaced hfirst hactive

/-- After a change that is no event, every tracer was there before. -/
theorem Followed.quiet (h : Followed workspace changed none copy tracer) :
    ∃ old, workspace.registry.activeFor? copy = some old ∧ old.Grows tracer [] ∧
      changed.text? old.source = workspace.text? old.source ∧
      changed.text? copy = workspace.text? copy := by
  cases h with
  | stays hold hgrows hevent hsource hcopy => exact ⟨_, hold, hgrows, hsource, hcopy⟩
  | grows hold hgrows hevent hbefore hafter hturns hcopy => cases hevent
  | begins hevent hgrows hcut hfirst hsource hcopy => cases hevent

/-- What a call can do to the tracer of a copy. -/
theorem Coherent.followed (h : workspace.Coherent) (hadvances : Advances workspace event changed)
    (hactive : changed.registry.activeFor? copy = some tracer) :
    Followed workspace changed event copy tracer := by
  cases hadvances with
  | same hevent heq =>
      subst heq
      exact .stays hactive (.refl _) (fun _ heq => by rw [hevent] at heq; cases heq) rfl rfl
  | single hchange => exact h.followed_change hchange hactive
  | double hchange hagain hfits =>
      obtain ⟨last, hlast, hgrows, hsource, hcopy⟩ :=
        ((h.change hchange).followed_change hagain hactive).quiet
      cases h.followed_change hchange hlast with
      | stays hold hgrows' hevent hsource' hcopy' =>
          rw [hgrows'.source] at hsource
          exact .stays hold (hgrows'.trans hgrows) hevent (hsource.trans hsource')
            (hcopy.trans hcopy')
      | grows hold hgrows' hevent hbefore hafter hturns hcopy' =>
          rw [hgrows'.source] at hsource
          exact .grows hold (hgrows'.trans hgrows) hevent hbefore (hsource.trans hafter) hturns
            (hcopy.trans hcopy')
      | begins hevent hgrows' hcut hfirst hsource' hcopy' =>
          have heq := hgrows'.source
          rw [hfirst] at heq
          rw [heq] at hsource
          exact .begins hevent (hgrows'.trans hgrows) hcut hfirst (hsource.trans hsource')
            (hcopy.trans hcopy')

end Retrace.Workspace
