import Retrace.Proofs.Completion.Agreement
import Retrace.Proofs.Completion.Drain
import Retrace.Proofs.Completion.Lifetime

/-!
# Documents do not interfere

Tracers and sessions of all documents are kept in the same tables, and calls select them by their
fields.  `SameOn` says that nothing that belongs to one document has changed, and `Call.Concerns`
says which calls are about a document.  In a coherent workspace every other call leaves it as it is
(`Coherent.sameOn_step`), because the fields by which calls select agree with the keys.

The questions that are asked with a handle look at what belongs to its document alone, so a call
that is directed at one document changes no answer about another one (`sameOn_of_directedAt`).
-/

namespace Retrace.Workspace

variable {workspace middle changed placed : Workspace} {source other copy id : DocumentId}
  {document found : Document} {tracer : Tracer} {handle : Handle} {text : String} {call : Call}
  {calls : List Call}

/-! ### What belongs to a document -/

/-- Nothing that belongs to a document has changed: the document itself, the copy that is listed for
it and the open copies of it, the live tracers to it and the sessions on it. -/
structure SameOn (workspace changed : Workspace) (source : DocumentId) : Prop where
  document : changed.documents.find? source = workspace.documents.find? source
  listed : changed.copies.find? source = workspace.copies.find? source
  copied : ∀ {id : DocumentId} {copied : Document}, copied.copyOf = some source →
    (changed.documents.find? id = some copied ↔ workspace.documents.find? id = some copied)
  tracer : ∀ {copy : DocumentId} {tracer : Tracer}, tracer.source = source →
    (changed.registry.activeFor? copy = some tracer ↔
      workspace.registry.activeFor? copy = some tracer)
  session : ∀ {copy : DocumentId} {session : Session}, session.source = source →
    (changed.sessions.find? copy = some session ↔ workspace.sessions.find? copy = some session)

namespace SameOn

theorem refl (workspace : Workspace) (source : DocumentId) : workspace.SameOn workspace source :=
  ⟨rfl, rfl, fun _ => Iff.rfl, fun _ => Iff.rfl, fun _ => Iff.rfl⟩

theorem trans (h : workspace.SameOn middle source) (h' : middle.SameOn changed source) :
    workspace.SameOn changed source where
  document := h'.document.trans h.document
  listed := h'.listed.trans h.listed
  copied hof := (h'.copied hof).trans (h.copied hof)
  tracer hto := (h'.tracer hto).trans (h.tracer hto)
  session hon := (h'.session hon).trans (h.session hon)

/-- Only documents are different, and those that belong to the source are not. -/
theorem of_documents {documents : Store}
    (hdocument : documents.find? source = workspace.documents.find? source)
    (hcopied : ∀ {id : DocumentId} {copied : Document}, copied.copyOf = some source →
      (documents.find? id = some copied ↔ workspace.documents.find? id = some copied)) :
    workspace.SameOn { workspace with documents } source :=
  ⟨hdocument, rfl, hcopied, fun _ => Iff.rfl, fun _ => Iff.rfl⟩

end SameOn

/-- A function that leaves alone the values that have a property, and gives it to no other, does not
change where these values are found. -/
theorem map_eq_some_iff_of_fixed {α : Type} {f : α → α} {p : α → Prop} {found : Option α}
    {value : α} (hkeeps : ∀ x, p (f x) → p x) (hfixed : ∀ x, found = some x → p x → f x = x)
    (hvalue : p value) : found.map f = some value ↔ found = some value := by
  rcases found with _ | x
  · simp
  · simp only [Option.map_some, Option.some.injEq]
    constructor
    · intro heq
      rw [← heq, hfixed x rfl (hkeeps x (heq ▸ hvalue))]
    · rintro rfl
      exact hfixed x rfl hvalue

/-! ### Changes of other documents -/

theorem copied_put_iff {new copied : Document}
    (hopen : workspace.documents.find? id = some document) (hof : document.copyOf ≠ some source)
    (hnew : new.copyOf = document.copyOf) (hcopied : copied.copyOf = some source) :
    (workspace.documents.put id new).find? other = some copied ↔
      workspace.documents.find? other = some copied := by
  rw [Store.find?_put]
  split
  · next heq =>
      rw [heq, hopen, Option.some.injEq, Option.some.injEq]
      constructor
      · rintro rfl
        exact absurd (hnew.symm.trans hcopied) hof
      · rintro rfl
        exact absurd hcopied hof
  · rfl

theorem sameOn_setText (hopen : workspace.documents.find? id = some document)
    (hof : document.copyOf ≠ some source) (hne : source ≠ id) (text : String) :
    workspace.SameOn
      { workspace with documents := workspace.documents.put id (document.setText text) }
      source := by
  refine .of_documents ?_ fun hcopied => copied_put_iff hopen hof rfl hcopied
  rw [Store.find?_put, if_neg hne]

theorem sameOn_withEdit {edit : Edit} {edited : Document}
    (hopen : workspace.documents.find? id = some document) (hnocopy : document.copyOf = none)
    (happly : document.apply edit = .ok edited) (hne : source ≠ id) :
    workspace.SameOn (workspace.withEdit id edit edited) source := by
  have hsame : workspace.SameOn
      { workspace with documents := workspace.documents.put id edited } source := by
    obtain ⟨-, text, -, rfl⟩ := Document.apply_eq_ok_iff.1 happly
    exact sameOn_setText hopen (by simp [hnocopy]) hne text
  refine ⟨hsame.document, rfl, hsame.copied, ?_, ?_⟩
  · intro copy tracer hto
    rw [activeFor?_withEdit]
    refine map_eq_some_iff_of_fixed (p := fun tracer => tracer.source = source) ?_ ?_ hto
    · intro old hold
      split at hold <;> exact hold
    · intro old _ hold
      rw [if_neg (hold ▸ hne)]
  · intro copy session hon
    rcases Table.find?_sweep workspace.sessions (Session.carry id edit) copy with heq | heq
    · rw [show (workspace.withEdit id edit edited).sessions.find? copy = _ from heq]
    · rw [show (workspace.withEdit id edit edited).sessions.find? copy = _ from heq]
      refine map_eq_some_iff_of_fixed (p := fun session => session.source = source) ?_ ?_ hon
      · intro old hold
        unfold Session.carry at hold
        split at hold <;> exact hold
      · intro old _ hold
        unfold Session.carry
        rw [if_neg (hold ▸ hne)]

theorem Coherent.sameOn_withCommit (h : workspace.Coherent)
    (hopen : workspace.documents.find? id = some document) (hof : document.copyOf ≠ some source)
    (hne : source ≠ id) : workspace.SameOn (workspace.withCommit id document) source := by
  refine ⟨?_, rfl, fun hcopied => copied_put_iff hopen hof rfl hcopied, ?_, ?_⟩
  · rw [find?_documents_withCommit, if_neg hne]
  · intro copy tracer hto
    rw [activeFor?_withCommit]
    refine map_eq_some_iff_of_fixed (p := fun tracer => tracer.source = source) ?_ ?_ hto
    · intro old hold
      split at hold
      · exact Tracer.source_mergeStaged.symm.trans hold
      · exact hold
    · intro old _ hold
      rw [if_neg (hold ▸ hne)]
  · intro copy session hon
    rw [find?_sessions_withCommit]
    refine map_eq_some_iff_of_fixed (p := fun session => session.source = source) ?_ ?_ hon
    · intro old hold
      exact source_refreshed.symm.trans hold
    · intro old hold hold'
      -- the tracer of a session on this document is not to the committed one
      obtain ⟨tracer, hactive, hsource⟩ := h.exists_tracer hold
      have hneTracer : tracer.source ≠ id := by
        rw [← hsource, hold']
        exact hne
      refine refreshed_of_ne ?_ hneTracer
      exact activeFor?_withCommit.trans (by rw [hactive, Option.map_some, if_neg hneTracer])

/-- A new tracer to another document takes a place that nothing of this document has. -/
theorem Coherent.sameOn_withTracer (h : workspace.Coherent) {session : Session}
    (hopen : workspace.documents.find? source = some document) (hnocopy : document.copyOf = none)
    (hplaced : Placed workspace id text copy placed) (hcopy : tracer.copy = copy)
    (hto : tracer.source = id) (hon : session.source = id) (hne : source ≠ id) :
    workspace.SameOn (placed.withTracer tracer session) source := by
  obtain ⟨made, -, hmade, hfind⟩ := hplaced.exists_copy h
  have hneMade : made.copyOf ≠ some source := by
    rw [hmade]
    simpa using hne.symm
  -- what was open, live or listed under the number of the copy belonged to the other document
  have hnotCopied : ∀ {copied : Document}, copied.copyOf = some source →
      workspace.documents.find? copy ≠ some copied := by
    intro copied hcopied hold
    rw [hplaced.copyOf_old h hold, Option.some.injEq] at hcopied
    exact hne hcopied.symm
  have hnotLive : ∀ {old : Tracer}, old.source = source →
      workspace.registry.activeFor? copy ≠ some old := by
    intro old hold hactive
    obtain ⟨copied, hcopied, hof⟩ := h.tracer_open hactive
    exact hnotCopied (hold ▸ hof) hcopied
  refine ⟨?_, ?_, ?_, ?_, ?_⟩
  · exact (hplaced.find?_eq_some h hopen hnocopy).trans hopen.symm
  · exact (hplaced.copies source).trans (if_neg hne)
  · intro other copied hcopied
    have hview : (placed.withTracer tracer session).documents.find? other =
        if other = copy then some made else workspace.documents.find? other := hfind other
    rw [hview]
    split
    · next heq =>
        rw [heq]
        refine iff_of_false ?_ (hnotCopied hcopied)
        rintro hsome
        cases hsome
        exact hneMade hcopied
    · rfl
  · intro other old hold
    rw [activeFor?_withTracer, hcopy, hplaced.registry]
    split
    · next heq =>
        rw [heq]
        refine iff_of_false ?_ (hnotLive hold)
        rintro hsome
        cases hsome
        exact hne (hold.symm.trans hto)
    · rfl
  · intro other old hold
    rw [sessions_withTracer, hcopy, hplaced.sessions]
    split
    · next heq =>
        rw [heq]
        refine iff_of_false ?_ ?_
        · rintro hsome
          cases hsome
          exact hne (hold.symm.trans hon)
        · intro hsession
          obtain ⟨found, hactive, hsource⟩ := h.exists_tracer hsession
          exact hnotLive (hsource.symm.trans hold) hactive
    · rfl

/-- Ending the sessions on another document, which may be closed at the same time. -/
theorem Coherent.sameOn_endSessionsOn (h : workspace.Coherent)
    (hopen : workspace.documents.find? source = some document) (hnocopy : document.copyOf = none)
    {documents : Store} (hsame : workspace.SameOn { workspace with documents } source)
    (hne : source ≠ id) :
    workspace.SameOn ({ workspace with documents }.endSessionsOn id) source := by
  -- the copy that is closed is the copy of the other document
  have hnotCopied : ∀ {other : DocumentId} {copied : Document}, copied.copyOf ≠ some id →
      workspace.documents.find? other = some copied → workspace.copies.find? id ≠ some other := by
    intro other copied hof hcopied hlisted
    exact hof (h.copyOf_of_listed hlisted hcopied)
  refine hsame.trans ⟨?_, ?_, ?_, ?_, ?_⟩
  · rw [find?_documents_endSessionsOn, if_neg (hnotCopied (by simp [hnocopy]) hopen)]
  · rw [copies_endSessionsOn, if_neg hne]
  · intro other copied hcopied
    rw [find?_documents_endSessionsOn]
    split
    · next hlisted =>
        refine iff_of_false (by simp) ?_
        intro hfound
        refine hnotCopied ?_ ((hsame.copied hcopied).1 hfound) hlisted
        rw [hcopied]
        simpa using hne
    · rfl
  · intro copy tracer hto
    rw [activeFor?_endSessionsOn, Option.filter_eq_some_iff, and_iff_left]
    simpa [hto] using hne
  · intro copy session hon
    rw [sessions_endSessionsOn, Option.filter_eq_some_iff, and_iff_left]
    simpa [hon] using hne

/-- A copy of another document has no tracer and no session of this one. -/
theorem Coherent.sameOn_withoutSession (h : workspace.Coherent)
    (hto : ∀ tracer, workspace.registry.activeFor? copy = some tracer → tracer.source ≠ source) :
    workspace.SameOn (workspace.withoutSession copy) source := by
  refine ⟨rfl, rfl, fun _ => Iff.rfl, ?_, ?_⟩
  · intro other tracer hsource
    rw [activeFor?_withoutSession]
    split
    · next heq => exact iff_of_false (by simp) fun hactive => hto tracer (heq ▸ hactive) hsource
    · rfl
  · intro other session hon
    rw [sessions_withoutSession]
    split
    · next heq =>
        refine iff_of_false (by simp) ?_
        intro hsession
        obtain ⟨tracer, hactive, hsource⟩ := h.exists_tracer hsession
        exact hto tracer (heq ▸ hactive) (hsource.symm.trans hon)
    · rfl

/-! ### Calls that are about other documents -/

/-- The calls that can change what belongs to a document: those that name it, those that close or
commit its copy, those that end a session on it, and those that go past all documents. -/
def Call.Concerns (workspace : Workspace) (source : DocumentId) : Call → Prop
  | .openDocument path _ => workspace.path? source = some path
  | .closeDocument id => id = source ∨ workspace.copies.find? source = some id
  | .commit id => id = source ∨ workspace.copies.find? source = some id
  | .noteEdit id _ => id = source
  | .edit id _ _ => id = source
  | .start id _ _ => id = source
  | .startAt id _ => id = source
  | .dispose handle => workspace.LiveOn handle source
  | .disposeAll => True
  | .onDocuments _ => True

namespace Coherent

theorem sameOn_noteEdit (h : workspace.Coherent) {edit : Edit} (hne : source ≠ id) :
    workspace.SameOn (workspace.noteEdit id edit).2 source := by
  rcases workspace.noteEdit_cases id edit with
    ⟨failure, heq⟩ | ⟨document, edited, hopen, hnocopy, happly, hmade⟩
  · rw [heq]
    exact .refl workspace source
  · have hedit := sameOn_withEdit hopen hnocopy happly hne
    rcases hmade with ⟨fault, -, heq⟩ | ⟨-, heq⟩ | ⟨-, heq⟩
    · rw [heq]
      exact hedit
    · rw [heq]
      exact hedit
    · rw [heq]
      have hcoherent := (h.keeps_withEdit hopen happly).coherent h
      obtain ⟨-, text, -, rfl⟩ := Document.apply_eq_ok_iff.1 happly
      exact hedit.trans (hcoherent.sameOn_withCommit find?_source_withEdit
        (by simp [Document.setText, hnocopy]) hne)

theorem sameOn_commit (h : workspace.Coherent) (hne : id ≠ source)
    (hlisted : workspace.copies.find? source ≠ some id) :
    workspace.SameOn (workspace.commit id).2 source := by
  rcases workspace.commit_cases id with ⟨-, heq⟩ | ⟨document, count, hopen, heq⟩
  · rw [heq]
    exact .refl workspace source
  · rw [heq]
    exact h.sameOn_withCommit hopen (fun hof => hlisted (h.copy_listed hopen hof)) hne.symm

theorem sameOn_start (h : workspace.Coherent)
    (hopen : workspace.documents.find? source = some document) (hnocopy : document.copyOf = none)
    {span : Span} {replacement : String} (hne : source ≠ id) :
    workspace.SameOn (workspace.start id span replacement).2 source := by
  rcases workspace.start_cases id span replacement with
    ⟨refusal, heq⟩ | ⟨found, parts, copy, placed, -, -, -, hplaced, heq⟩
  · rw [heq]
    exact .refl workspace source
  · rw [heq]
    exact h.sameOn_withTracer hopen hnocopy hplaced rfl rfl rfl hne

theorem sameOn_openPath (h : workspace.Coherent)
    (hopen : workspace.documents.find? source = some document) {path text : String}
    (hpath : workspace.path? source ≠ some path) :
    workspace.SameOn
      { workspace with documents := (workspace.documents.openPath path text).2 } source := by
  rcases h.sound.openPath_cases path text with
    ⟨id, found, hfound, hopened, hid, heq⟩ | ⟨hfree, heq⟩
  · rw [heq]
    -- a document with a path is no copy
    have hnocopy : found.copyOf = none := by
      refine Decidable.byContradiction fun hcopy => ?_
      rw [(h.sound.filed hfound).path_of_copy hcopy] at hopened
      cases hopened
    refine sameOn_setText hfound (by simp [hnocopy]) ?_ text
    rintro rfl
    exact hpath ((path?_of_open hfound).trans hopened)
  · rw [heq]
    refine .of_documents ?_ ?_
    · rw [Store.find?_openFresh, if_neg (h.sound.ne_next hopen)]
    · intro id copied hcopied
      rw [Store.find?_openFresh]
      split
      · next hnext =>
          rw [hnext, h.sound.not_open_next]
          refine iff_of_false ?_ (by simp)
          rintro hfresh
          cases hfresh
          cases hcopied
      · rfl

theorem sameOn_openDocument (h : workspace.Coherent)
    (hopen : workspace.documents.find? source = some document) (hnocopy : document.copyOf = none)
    {path text : String} (hpath : workspace.path? source ≠ some path) :
    workspace.SameOn (workspace.openDocument path text).2 source := by
  rcases workspace.openDocument_cases path text with
    ⟨id, found, hid, hfound, -, heq⟩ | ⟨-, heq⟩
  · rw [heq]
    have hne : source ≠ id := by
      rintro rfl
      exact hpath (h.path?_eq_some_iff.2 hid)
    have hended := h.sameOn_endSessionsOn hopen hnocopy (.refl workspace source) hne
    have hcoherent : (workspace.endSessionsOn id).Coherent :=
      (h.shrinks_endSessionsOn h.sound (fun _ _ => rfl) (Or.inl rfl)).coherent h
    have hopen' : (workspace.endSessionsOn id).documents.find? source = some document :=
      hended.document.trans hopen
    refine hended.trans (hcoherent.sameOn_openPath hopen' ?_)
    rwa [path?_of_open hopen', ← path?_of_open hopen]
  · rw [heq]
    exact h.sameOn_openPath hopen hpath

theorem sameOn_closeDocument (h : workspace.Coherent)
    (hopen : workspace.documents.find? source = some document) (hnocopy : document.copyOf = none)
    (hne : id ≠ source) (hlisted : workspace.copies.find? source ≠ some id) :
    workspace.SameOn (workspace.closeDocument id).2 source := by
  have hclosed : workspace.SameOn
      { workspace with documents := (workspace.documents.close id).2 } source := by
    refine .of_documents ?_ ?_
    · rw [Store.find?_close, if_neg hne.symm]
    · intro other copied hcopied
      rw [Store.find?_close]
      split
      · next heq =>
          refine iff_of_false (by simp) ?_
          intro hfound
          exact hlisted (heq ▸ h.copy_listed hfound hcopied)
      · rfl
  rcases workspace.closeDocument_cases id with
    ⟨-, heq⟩ | ⟨found, -, -, heq⟩ | ⟨found, of, hfound, hof, hmade⟩
  · rw [heq]
    exact .refl workspace source
  · rw [heq]
    exact h.sameOn_endSessionsOn hopen hnocopy hclosed hne.symm
  · have hneOf : source ≠ of := by
      rintro rfl
      exact hlisted (h.copy_listed hfound hof)
    have hforgotten : workspace.SameOn
        { workspace with
          documents := (workspace.documents.close id).2
          copies := workspace.copies.erase of } source := by
      refine ⟨hclosed.document, ?_, hclosed.copied, fun _ => Iff.rfl, fun _ => Iff.rfl⟩
      rw [Table.find?_erase, if_neg hneOf]
    rcases hmade with ⟨-, heq⟩ | ⟨tracer, hactive, heq⟩
    · rw [heq]
      exact hforgotten
    · rw [heq]
      have hended : workspace.SameOn (workspace.withoutSession id) source := by
        refine h.sameOn_withoutSession ?_
        intro live hlive hsource
        exact hneOf (hsource.symm.trans (h.source_eq hlive hfound hof))
      exact ⟨hforgotten.document, hforgotten.listed, hforgotten.copied, hended.tracer,
        hended.session⟩

theorem sameOn_dispose (h : workspace.Coherent) (hlive : ¬ workspace.LiveOn handle source) :
    workspace.SameOn (workspace.dispose handle).2 source := by
  rcases workspace.dispose_cases handle with ⟨-, heq⟩ | ⟨tracer, hfind, heq⟩
  · rw [heq]
    exact .refl workspace source
  · rw [heq]
    refine h.sameOn_withoutSession ?_
    intro found hactive hsource
    rw [Registry.find?_eq_some_iff] at hfind
    rw [hfind.1, Option.some.injEq] at hactive
    subst hactive
    exact hlive (liveOn_iff.2 ⟨tracer, hfind.1, hfind.2, hsource⟩)

/-- A call that is not about a document leaves it, its copy, its tracers and its sessions alone. -/
theorem sameOn_step (h : workspace.Coherent)
    (hopen : workspace.documents.find? source = some document) (hnocopy : document.copyOf = none)
    (hconcerns : ¬ call.Concerns workspace source) :
    workspace.SameOn (workspace.step call).2 source := by
  cases call with
  | openDocument path text => exact h.sameOn_openDocument hopen hnocopy hconcerns
  | closeDocument id =>
      obtain ⟨hne, hlisted⟩ := not_or.1 hconcerns
      exact h.sameOn_closeDocument hopen hnocopy hne hlisted
  | noteEdit id edit => exact h.sameOn_noteEdit (Ne.symm hconcerns)
  | edit id span text =>
      simp only [Workspace.step]
      rcases workspace.edit_cases id span text with ⟨refusal, heq⟩ | ⟨found, parts, -, -, heq⟩
      · rw [heq]
        exact .refl workspace source
      · rw [heq]
        exact h.sameOn_noteEdit (Ne.symm hconcerns)
  | commit id =>
      obtain ⟨hne, hlisted⟩ := not_or.1 hconcerns
      exact h.sameOn_commit hne hlisted
  | start id span replacement => exact h.sameOn_start hopen hnocopy (Ne.symm hconcerns)
  | startAt id caret =>
      simp only [Workspace.step]
      rcases workspace.startAt_cases id caret with ⟨failure, heq⟩ | ⟨found, span, -, -, heq⟩
      · rw [heq]
        exact .refl workspace source
      · rw [heq]
        exact h.sameOn_start hopen hnocopy (Ne.symm hconcerns)
  | dispose disposed => exact h.sameOn_dispose hconcerns
  | disposeAll => exact absurd trivial hconcerns
  | onDocuments call => exact absurd trivial hconcerns

end Coherent

/-! ### Closed documents -/

namespace Coherent

theorem copyOf_ne (h : workspace.Coherent) (hnone : workspace.copies.find? source = none)
    (hopen : workspace.documents.find? id = some document) : document.copyOf ≠ some source := by
  intro hof
  rw [h.copy_listed hopen hof] at hnone
  cases hnone

theorem tracer_source_ne (h : workspace.Coherent) (hnone : workspace.copies.find? source = none)
    (hactive : workspace.registry.activeFor? copy = some tracer) : tracer.source ≠ source := by
  rintro rfl
  obtain ⟨copied, hopen, hof⟩ := h.tracer_open hactive
  exact h.copyOf_ne hnone hopen hof

theorem session_source_ne (h : workspace.Coherent) {session : Session}
    (hnone : workspace.copies.find? source = none)
    (hsession : workspace.sessions.find? copy = some session) : session.source ≠ source := by
  obtain ⟨tracer, hactive, hsource⟩ := h.exists_tracer hsession
  rw [hsource]
  exact h.tracer_source_ne hnone hactive

/-- A document that stays closed has no copy, no tracer and no session, before and after. -/
theorem sameOn_of_closed (h : workspace.Coherent) (h' : changed.Coherent)
    (hclosed : workspace.documents.find? source = none)
    (hclosed' : changed.documents.find? source = none) : workspace.SameOn changed source := by
  have hnone := h.not_listed_of_closed hclosed
  have hnone' := h'.not_listed_of_closed hclosed'
  refine ⟨hclosed'.trans hclosed.symm, hnone'.trans hnone.symm, ?_, ?_, ?_⟩
  · intro id copied hof
    exact iff_of_false (fun hopen => h'.copyOf_ne hnone' hopen hof)
      fun hopen => h.copyOf_ne hnone hopen hof
  · intro copy tracer hto
    exact iff_of_false (fun hactive => h'.tracer_source_ne hnone' hactive hto)
      fun hactive => h.tracer_source_ne hnone hactive hto
  · intro copy session hon
    exact iff_of_false (fun hsession => h'.session_source_ne hnone' hsession hon)
      fun hsession => h.session_source_ne hnone hsession hon

end Coherent

/-! ### Handles and their answers -/

/-- A call of the run has started a completion on the document and has returned the handle. -/
def HandedOut (workspace : Workspace) (calls : List Call) (source : DocumentId)
    (handle : Handle) : Prop :=
  ∃ made ∈ calls.zip (workspace.run calls).1, made.1.startsOn = some source ∧
    ∃ completion, made.2 = .started completion ∧ completion.handle = handle

/-- A handle can only be live on the document for which it was handed out. -/
theorem Coherent.handedOut (h : workspace.Coherent) (hown : ∀ call ∈ calls, call.isOwn = true)
    (hgiven : workspace.HandedOut calls source handle) :
    handle.generation.number ≤ (workspace.after calls).registry.lastGeneration ∧
      ∀ other, (workspace.after calls).LiveOn handle other → other = source := by
  induction calls generalizing workspace with
  | nil =>
      obtain ⟨made, hmade, -⟩ := hgiven
      cases hmade
  | cons call rest ih =>
      rw [List.forall_mem_cons] at hown
      obtain ⟨made, hmade, hon, completion, hreply, rfl⟩ := hgiven
      have hstep := h.step hown.1
      have hzip : made = (call, (workspace.step call).1) ∨
          made ∈ rest.zip ((workspace.step call).2.run rest).1 := List.mem_cons.1 hmade
      rcases hzip with rfl | hrest
      · obtain ⟨document, -, hlive, -, hissued⟩ := h.liveOn_step_started hon hreply
        refine ⟨Nat.le_trans hissued (hstep.lastGeneration_le_after hown.2), ?_⟩
        intro other hother
        exact ((hstep.liveOn_after hown.2 hissued).1 hother).1.source_eq hlive
      · exact ih hstep hown.2 ⟨made, hrest, hon, completion, hreply, rfl⟩

theorem SameOn.find?_eq (hsame : workspace.SameOn changed source)
    (hbefore : ∀ other, workspace.LiveOn handle other → other = source)
    (hafter : ∀ other, changed.LiveOn handle other → other = source) :
    changed.registry.find? handle = workspace.registry.find? handle := by
  apply Option.ext
  intro tracer
  constructor
  · intro hfind
    have hsource := hafter tracer.source ⟨tracer, hfind, rfl⟩
    rw [Registry.find?_eq_some_iff] at hfind ⊢
    exact ⟨(hsame.tracer hsource).1 hfind.1, hfind.2⟩
  · intro hfind
    have hsource := hbefore tracer.source ⟨tracer, hfind, rfl⟩
    rw [Registry.find?_eq_some_iff] at hfind ⊢
    exact ⟨(hsame.tracer hsource).2 hfind.1, hfind.2⟩

theorem Coherent.tracer?_eq (h : workspace.Coherent) :
    workspace.tracer? handle = workspace.registry.find? handle := by
  unfold tracer?
  rcases hfind : workspace.registry.find? handle with _ | tracer
  · rfl
  · obtain ⟨original, horiginal, -⟩ :=
      h.tracer_source_open (Registry.find?_eq_some_iff.1 hfind).1
    simp [Option.filter, Store.contains, horiginal]

/-- Every question about a handle is answered from what belongs to its document. -/
theorem SameOn.answers_eq (hsame : workspace.SameOn changed source) (h : workspace.Coherent)
    (h' : changed.Coherent) (hbefore : ∀ other, workspace.LiveOn handle other → other = source)
    (hafter : ∀ other, changed.LiveOn handle other → other = source) :
    changed.tracer? handle = workspace.tracer? handle ∧
      changed.marks? handle = workspace.marks? handle ∧
      (∀ offset, changed.retrace handle offset = workspace.retrace handle offset) ∧
      (∀ span, changed.retraceSpan handle span = workspace.retraceSpan handle span) ∧
      ∀ position, changed.retracePosition handle position =
        workspace.retracePosition handle position := by
  have htracer : changed.tracer? handle = workspace.tracer? handle := by
    rw [h.tracer?_eq, h'.tracer?_eq, hsame.find?_eq hbefore hafter]
  refine ⟨htracer, ?_⟩
  unfold marks? retrace retraceSpan retracePosition
  rw [htracer]
  rcases hlive : workspace.tracer? handle with _ | tracer
  · exact ⟨rfl, fun _ => rfl, fun _ => rfl, fun _ => rfl⟩
  · -- the session and the copy of a live tracer belong to its source
    obtain ⟨hactive, -⟩ := h.handle_eq hlive
    obtain ⟨session, hsession, hon⟩ := h.exists_session hactive
    obtain ⟨copied, hcopied, hof⟩ := h.tracer_open hactive
    have hsource : tracer.source = source := by
      rw [h.tracer?_eq] at hlive
      exact hbefore tracer.source ⟨tracer, hlive, rfl⟩
    have hsession' := (hsame.session (hon.trans hsource)).2 hsession
    have hcopied' := (hsame.copied (hsource ▸ hof)).2 hcopied
    rw [hsession, hcopied, hsession', hcopied']
    exact ⟨rfl, fun _ => rfl, fun _ => rfl, fun _ => rfl⟩

/-- The document that an open document is a copy of. -/
def copyOf? (workspace : Workspace) (id : DocumentId) : Option DocumentId :=
  (workspace.documents.find? id).bind Document.copyOf

theorem copyOf?_of_open (hopen : workspace.documents.find? id = some document) :
    workspace.copyOf? id = document.copyOf := by
  rw [copyOf?, hopen]
  rfl

/-- The calls that are directed at a document: they name it or its copy, or the path under which it
is open, or a handle that was given out for it. -/
def Call.DirectedAt (workspace : Workspace) (source : DocumentId) (given : Handle → Prop) :
    Call → Prop
  | .openDocument path _ => workspace.path? source = some path
  | .closeDocument id => id = source ∨ workspace.copyOf? id = some source
  | .noteEdit id _ => id = source ∨ workspace.copyOf? id = some source
  | .edit id _ _ => id = source ∨ workspace.copyOf? id = some source
  | .commit id => id = source ∨ workspace.copyOf? id = some source
  | .start id _ _ => id = source ∨ workspace.copyOf? id = some source
  | .startAt id _ => id = source ∨ workspace.copyOf? id = some source
  | .dispose handle => given handle
  | .disposeAll => False
  | .onDocuments _ => False

theorem Call.DirectedAt.isOwn {given : Handle → Prop}
    (hdirected : call.DirectedAt workspace source given) : call.isOwn = true := by
  cases call with
  | onDocuments call => exact hdirected.elim
  | _ => rfl

/-- A call that is directed at one document is not about another one. -/
theorem Coherent.not_concerns (h : workspace.Coherent) {given : Handle → Prop}
    (hgiven : ∀ {handle id}, given handle → workspace.LiveOn handle id → id = source)
    (hopen : workspace.documents.find? other = some document) (hnocopy : document.copyOf = none)
    (hsource : workspace.copyOf? source = none) (hne : source ≠ other)
    (hdirected : call.DirectedAt workspace source given) : ¬ call.Concerns workspace other := by
  have hname : ∀ {id}, id = source ∨ workspace.copyOf? id = some source → id ≠ other := by
    rintro id (rfl | hof) rfl
    · exact hne rfl
    · rw [copyOf?_of_open hopen, hnocopy] at hof
      cases hof
  have hcopy : ∀ {id}, id = source ∨ workspace.copyOf? id = some source →
      workspace.copies.find? other ≠ some id := by
    intro id hid hlisted
    obtain ⟨copied, hcopied, hof⟩ := h.copy_open hlisted
    rw [← copyOf?_of_open hcopied] at hof
    rcases hid with rfl | hid
    · rw [hsource] at hof
      cases hof
    · rw [hid, Option.some.injEq] at hof
      exact hne hof
  cases call with
  | openDocument path text =>
      intro hpath
      -- a path is that of one document
      rw [Call.Concerns, h.path?_eq_some_iff] at hpath
      rw [Call.DirectedAt, h.path?_eq_some_iff, hpath, Option.some.injEq] at hdirected
      exact hne hdirected.symm
  | closeDocument id => exact not_or.2 ⟨hname hdirected, hcopy hdirected⟩
  | noteEdit id edit => exact hname hdirected
  | edit id span text => exact hname hdirected
  | commit id => exact not_or.2 ⟨hname hdirected, hcopy hdirected⟩
  | start id span replacement => exact hname hdirected
  | startAt id caret => exact hname hdirected
  | dispose handle => exact fun hlive => hne (hgiven hdirected hlive).symm
  | disposeAll => exact hdirected.elim
  | onDocuments call => exact hdirected.elim

/-- **Documents do not interfere.**  In every state that calls of the workspace reach, under any
policy, a call that is directed at one document, successful or not, leaves alone every other
document that is no copy: its text and stamps, its copy, the live tracer to it and the session on
it.  If the other document was closed, it stays closed.  Every question about a handle that was
given out for the other document has the answer that it had before. -/
theorem sameOn_of_directedAt (config : Config) (policy : CommitPolicy)
    (hown : ∀ made ∈ calls, made.isOwn = true)
    (hnumber : other.index < ((initial config policy).after calls).documents.nextIndex)
    (hother : ((initial config policy).after calls).copyOf? other = none)
    (hsource : ((initial config policy).after calls).copyOf? source = none) (hne : source ≠ other)
    (hdirected : call.DirectedAt ((initial config policy).after calls) source
      ((initial config policy).HandedOut calls source)) :
    let workspace := (initial config policy).after calls
    let changed := (workspace.step call).2
    workspace.SameOn changed other ∧
      ∀ handle, (initial config policy).HandedOut calls other handle →
        changed.isUpToDate handle = workspace.isUpToDate handle ∧
          changed.tracer? handle = workspace.tracer? handle ∧
          changed.marks? handle = workspace.marks? handle ∧
          (∀ offset, changed.retrace handle offset = workspace.retrace handle offset) ∧
          (∀ span, changed.retraceSpan handle span = workspace.retraceSpan handle span) ∧
          ∀ position, changed.retracePosition handle position =
            workspace.retracePosition handle position := by
  intro workspace changed
  have hinitial := coherent_initial config policy
  have h : workspace.Coherent := hinitial.after hown
  have h' : changed.Coherent := h.step hdirected.isOwn
  have hsame : workspace.SameOn changed other := by
    rcases hopen : workspace.documents.find? other with _ | document
    · -- no call gives a number out again
      exact h.sameOn_of_closed h' hopen ((ages_step h.sound call).find?_eq_none hnumber hopen)
    · have hnocopy : document.copyOf = none := (copyOf?_of_open hopen).symm.trans hother
      exact h.sameOn_step hopen hnocopy (h.not_concerns
        (fun hgiven => (hinitial.handedOut hown hgiven).2 _) hopen hnocopy hsource hne hdirected)
  refine ⟨hsame, ?_⟩
  intro handle hgiven
  obtain ⟨hissued, hbefore⟩ := hinitial.handedOut hown hgiven
  have hafter : ∀ id, changed.LiveOn handle id → id = other := by
    intro id hlive
    exact hbefore id ((h.liveOn_step hdirected.isOwn hissued).1 hlive).1
  have hanswers := hsame.answers_eq h h' hbefore hafter
  exact ⟨congrArg Option.isSome hanswers.1, hanswers⟩

/-- Completions on two documents, with an edit staged for each.  The copy of the first document is
closed, and the handle of the second one stays live and answers as before. -/
theorem sameOn_of_closed_copy :
    let calls : List Call := [.openDocument "/a" "ab", .openDocument "/b" "cd",
      .start ⟨0⟩ ⟨1, 1, Nat.le_refl 1⟩ "X", .start ⟨1⟩ ⟨0, 1, Nat.zero_le 1⟩ "Y",
      .edit ⟨0⟩ ⟨0, 1, Nat.zero_le 1⟩ "", .edit ⟨1⟩ ⟨1, 2, by decide⟩ "é"]
    let call : Call := .closeDocument ⟨2⟩
    let handle : Handle := ⟨⟨3⟩, ⟨2⟩⟩
    let workspace := (initial .default .stampAdvanced).after calls
    (∀ made ∈ calls, made.isOwn = true) ∧ 1 < workspace.documents.nextIndex ∧
      workspace.copyOf? ⟨1⟩ = none ∧ workspace.copyOf? ⟨0⟩ = none ∧
      call.DirectedAt workspace ⟨0⟩ ((initial .default .stampAdvanced).HandedOut calls ⟨0⟩) ∧
      (initial .default .stampAdvanced).HandedOut calls ⟨1⟩ handle ∧
      (workspace.step call).1 = .closed true ∧
      workspace.SameOn (workspace.step call).2 ⟨1⟩ ∧
      (workspace.step call).2.isUpToDate handle = true ∧
      (workspace.step call).2.retrace handle 2 = .ok (some 2) := by
  intro calls call handle workspace
  have hown : ∀ made ∈ calls, made.isOwn = true := by decide
  have hnumber : 1 < workspace.documents.nextIndex := by decide
  have hother : workspace.copyOf? ⟨1⟩ = none := by decide
  have hsource : workspace.copyOf? ⟨0⟩ = none := by decide
  have hdirected : call.DirectedAt workspace ⟨0⟩
      ((initial .default .stampAdvanced).HandedOut calls ⟨0⟩) := Or.inr (by decide)
  have hgiven : (initial .default .stampAdvanced).HandedOut calls ⟨1⟩ handle :=
    ⟨(.start ⟨1⟩ ⟨0, 1, Nat.zero_le 1⟩ "Y", .started ⟨⟨1⟩, ⟨3⟩, handle, "Yd"⟩), by decide, rfl, _,
      rfl, rfl⟩
  obtain ⟨hsame, hanswers⟩ := sameOn_of_directedAt .default .stampAdvanced hown hnumber hother
    hsource (by decide) hdirected
  obtain ⟨hlive, -, -, hretrace, -⟩ := hanswers handle hgiven
  refine ⟨hown, hnumber, hother, hsource, hdirected, hgiven, by decide, hsame, ?_, ?_⟩
  · refine hlive.trans ?_
    decide
  · refine (hretrace 2).trans ?_
    rfl

end Retrace.Workspace
