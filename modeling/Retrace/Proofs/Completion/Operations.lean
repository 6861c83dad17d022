import Retrace.Completion.Workspace
import Retrace.Proofs.Document.Store
import Retrace.Proofs.Tracer.Registry

/-!
# What the operations of a workspace leave behind

A workspace is read through five look-ups: the open documents, the path index, the live
tracers, the copies that completions use, and the sessions.  This file says once, for every
operation, which results it can have (`noteEdit_cases`, `commit_cases`, `start_cases`, …), and
names the workspaces that come out: `withEdit`, `withCommit` and `withTracer` for the calls
that add something, `withoutSession` and `endSessionsOn` for those that take something away.
Later proofs use the look-ups into these and open no operation again.
-/

namespace Retrace.Workspace

variable {workspace placed : Workspace} {source copy id : DocumentId} {edit : Edit}
  {document edited : Document} {span : Span} {parts : Text.Cut} {handle : Handle}

/-! ### Ending sessions -/

/-- Without the tracer and the session of a copy. -/
def withoutSession (workspace : Workspace) (copy : DocumentId) : Workspace :=
  { workspace with
    registry := { workspace.registry with active := workspace.registry.active.erase copy }
    sessions := workspace.sessions.erase copy }

@[simp] theorem activeFor?_withoutSession (copy : DocumentId) :
    (workspace.withoutSession copy).registry.activeFor? id =
      if id = copy then none else workspace.registry.activeFor? id :=
  Table.find?_erase workspace.registry.active copy id

@[simp] theorem sessions_withoutSession (copy : DocumentId) :
    (workspace.withoutSession copy).sessions.find? id =
      if id = copy then none else workspace.sessions.find? id :=
  Table.find?_erase workspace.sessions copy id

theorem dispose_cases (workspace : Workspace) (handle : Handle) :
    (workspace.registry.find? handle = none ∧ workspace.dispose handle = (false, workspace)) ∨
      ∃ tracer, workspace.registry.find? handle = some tracer ∧
        workspace.dispose handle = (true, workspace.withoutSession handle.copy) := by
  rcases workspace.registry.dispose_cases handle with ⟨hfind, hdispose⟩ | ⟨tracer, hfind, hdispose⟩
  · exact Or.inl ⟨hfind, by simp only [dispose, hdispose]⟩
  · exact Or.inr ⟨tracer, hfind, by simp only [dispose, hdispose, withoutSession]⟩

@[simp] theorem activeFor?_endSessionsOn :
    (workspace.endSessionsOn source).registry.activeFor? id =
      (workspace.registry.activeFor? id).filter fun tracer => tracer.source ≠ source := by
  unfold endSessionsOn
  split <;> exact Registry.activeFor?_disposeSource

@[simp] theorem lastGeneration_endSessionsOn :
    (workspace.endSessionsOn source).registry.lastGeneration =
      workspace.registry.lastGeneration := by
  unfold endSessionsOn
  split <;> rfl

@[simp] theorem sessions_endSessionsOn :
    (workspace.endSessionsOn source).sessions.find? id =
      (workspace.sessions.find? id).filter fun session => session.source ≠ source := by
  unfold endSessionsOn
  split <;> exact Table.find?_filter workspace.sessions _ id

@[simp] theorem copies_endSessionsOn :
    (workspace.endSessionsOn source).copies.find? id =
      if id = source then none else workspace.copies.find? id := by
  unfold endSessionsOn
  split
  · next h =>
      split
      · next heq => exact heq ▸ h
      · rfl
  · exact Table.find?_erase workspace.copies source id

theorem documents_endSessionsOn :
    (workspace.endSessionsOn source).documents =
      match workspace.copies.find? source with
      | none => workspace.documents
      | some copy => (workspace.documents.close copy).2 := by
  unfold endSessionsOn
  rcases workspace.copies.find? source with _ | copy <;> rfl

theorem find?_documents_endSessionsOn :
    (workspace.endSessionsOn source).documents.find? id =
      if workspace.copies.find? source = some id then none else workspace.documents.find? id := by
  rw [documents_endSessionsOn]
  rcases workspace.copies.find? source with _ | copy
  · simp
  · simp [eq_comm]

/-! ### Closing everything -/

theorem find?_foldl_close (ids : List DocumentId) (store : Store) :
    (ids.foldl (fun store copy => (store.close copy).2) store).find? id =
      if id ∈ ids then none else store.find? id := by
  induction ids generalizing store with
  | nil => simp
  | cons head rest ih =>
      rw [List.foldl_cons, ih, Store.find?_close]
      by_cases hrest : id ∈ rest
      · simp [hrest]
      · simp [hrest]

theorem sound_foldl_close (ids : List DocumentId) {store : Store} (h : store.Sound) :
    (ids.foldl (fun store copy => (store.close copy).2) store).Sound := by
  induction ids generalizing store with
  | nil => exact h
  | cons head rest ih => exact ih (h.close head)

theorem mem_values_iff {copies : Table DocumentId DocumentId} :
    copy ∈ copies.values ↔ ∃ source, copies.find? source = some copy := by
  simp [Table.values, Table.find?_eq_some_iff]

theorem find?_documents_disposeAll :
    workspace.disposeAll.documents.find? id =
      if id ∈ workspace.copies.values then none else workspace.documents.find? id :=
  find?_foldl_close _ _

/-! ### Committing -/

/-- After a commit of an open document: the stamp is taken, staged edits are merged as far as
the policy lets them, and sessions with nothing staged take over the lines. -/
def withCommit (workspace : Workspace) (source : DocumentId) (document : Document) : Workspace :=
  let registry :=
    (workspace.registry.mergeStaged source document.commit.committed workspace.policy).2
  { workspace with
    documents := workspace.documents.put source document.commit
    registry := registry
    sessions := workspace.sessions.map fun copy session =>
      match registry.activeFor? copy with
      | none => session
      | some tracer =>
          if tracer.source = source ∧ tracer.staged = [] then
            { session with frame := document.commit.lines }
          else session }

theorem commit_cases (workspace : Workspace) (source : DocumentId) :
    (workspace.documents.find? source = none ∧
        workspace.commit source = workspace.refuse (.unknownDocument source)) ∨
      ∃ document count, workspace.documents.find? source = some document ∧
        workspace.commit source = (.ok count, workspace.withCommit source document) := by
  unfold commit Store.get
  rcases hfind : workspace.documents.find? source with _ | document
  · exact Or.inl ⟨rfl, rfl⟩
  · exact Or.inr ⟨document, _, rfl, rfl⟩

@[simp] theorem find?_documents_withCommit :
    (workspace.withCommit source document).documents.find? id =
      if id = source then some document.commit else workspace.documents.find? id :=
  Store.find?_put

@[simp] theorem activeFor?_withCommit :
    (workspace.withCommit source document).registry.activeFor? id =
      (workspace.registry.activeFor? id).map fun tracer =>
        if tracer.source = source then (tracer.mergeStaged document.modified workspace.policy).2
        else tracer :=
  Registry.activeFor?_mapTo _

/-- A commit changes nothing of a session but its lines. -/
theorem sessions_withCommit (workspace : Workspace) (source : DocumentId) (document : Document)
    (id : DocumentId) :
    ∃ frame : Session → Lines, (workspace.withCommit source document).sessions.find? id =
      (workspace.sessions.find? id).map fun session => { session with frame := frame session } := by
  have hmap := Table.find?_map workspace.sessions (fun copy session =>
    match (workspace.withCommit source document).registry.activeFor? copy with
    | none => session
    | some tracer =>
        if tracer.source = source ∧ tracer.staged = [] then
          { session with frame := document.commit.lines }
        else session) id
  rcases hactive : (workspace.withCommit source document).registry.activeFor? id with _ | tracer
  · simp only [hactive] at hmap
    exact ⟨Session.frame, hmap⟩
  · simp only [hactive] at hmap
    by_cases hrefresh : tracer.source = source ∧ tracer.staged = []
    · simp only [if_pos hrefresh] at hmap
      exact ⟨fun _ => document.commit.lines, hmap⟩
    · simp only [if_neg hrefresh] at hmap
      exact ⟨Session.frame, hmap⟩

/-! ### Edits -/

/-- After an edit of an open document that is no copy: the text is edited, the edit is staged
with the tracers, and the named offsets of the sessions are carried over it. -/
def withEdit (workspace : Workspace) (source : DocumentId) (edit : Edit) (edited : Document) :
    Workspace :=
  { workspace with
    documents := workspace.documents.put source edited
    registry := workspace.registry.record source edit
    sessions := (workspace.sessions.sweep (Session.carry source edit)).2 }

@[simp] theorem find?_documents_withEdit :
    (workspace.withEdit source edit edited).documents.find? id =
      if id = source then some edited else workspace.documents.find? id :=
  Store.find?_put

theorem find?_source_withEdit :
    (workspace.withEdit source edit edited).documents.find? source = some edited :=
  find?_documents_withEdit.trans (if_pos rfl)

@[simp] theorem activeFor?_withEdit :
    (workspace.withEdit source edit edited).registry.activeFor? id =
      (workspace.registry.activeFor? id).map fun tracer =>
        if tracer.source = source then tracer.record edit else tracer :=
  Registry.activeFor?_mapTo _

/-- What an edit can come to that its document accepts.  It is made, and then a named offset may
leave its range, or a commit may follow. -/
theorem noteEdit_of_apply (hopen : workspace.documents.find? source = some document)
    (hcopy : document.copyOf = none) (happly : document.apply edit = .ok edited) :
    (∃ fault, (workspace.sessions.sweep (Session.carry source edit)).1 = .error fault ∧
        workspace.noteEdit source edit =
          (.error (.broken fault), workspace.withEdit source edit edited)) ∨
      (workspace.policy.commitOnEdit = false ∧
        workspace.noteEdit source edit = (.ok (), workspace.withEdit source edit edited)) ∨
      (workspace.policy.commitOnEdit = true ∧
        workspace.noteEdit source edit =
          (.ok (), (workspace.withEdit source edit edited).withCommit source edited)) := by
  simp only [noteEdit, Store.get, hopen, if_neg (not_not_intro hcopy), happly]
  rcases hswept : (workspace.sessions.sweep (Session.carry source edit)).1 with fault | _
  · exact Or.inl ⟨fault, rfl, rfl⟩
  · cases hpolicy : workspace.policy.commitOnEdit with
    | false => exact Or.inr (Or.inl ⟨rfl, rfl⟩)
    | true =>
        refine Or.inr (Or.inr ⟨rfl, ?_⟩)
        -- the commit finds the document that was just put there
        rcases (workspace.withEdit source edit edited).commit_cases source with
          ⟨hnone, -⟩ | ⟨found, count, hfind, hcommit⟩
        · rw [find?_source_withEdit] at hnone
          cases hnone
        · rw [find?_source_withEdit, Option.some.injEq] at hfind
          subst hfind
          simp only [withEdit] at hcommit ⊢
          simp only [hcommit, if_true]

/-- An edit that its document accepts, and that carries a named offset out of its range. -/
theorem noteEdit_of_fault {fault : Fault}
    (hopen : workspace.documents.find? source = some document) (hcopy : document.copyOf = none)
    (happly : document.apply edit = .ok edited)
    (hswept : (workspace.sessions.sweep (Session.carry source edit)).1 = .error fault) :
    workspace.noteEdit source edit =
      (.error (.broken fault), workspace.withEdit source edit edited) := by
  simp only [noteEdit, Store.get, hopen, if_neg (not_not_intro hcopy), happly, hswept, withEdit]

/-- An edit that is accepted. -/
theorem noteEdit_of_swept
    (hopen : workspace.documents.find? source = some document) (hcopy : document.copyOf = none)
    (happly : document.apply edit = .ok edited)
    (hswept : (workspace.sessions.sweep (Session.carry source edit)).1 = .ok ()) :
    workspace.noteEdit source edit =
      (.ok (), if workspace.policy.commitOnEdit then
        (workspace.withEdit source edit edited).withCommit source edited
        else workspace.withEdit source edit edited) := by
  rcases noteEdit_of_apply hopen hcopy happly with
    ⟨fault, hfault, -⟩ | ⟨hpolicy, heq⟩ | ⟨hpolicy, heq⟩
  · rw [hswept] at hfault
    cases hfault
  · rw [heq, hpolicy]
    rfl
  · rw [heq, hpolicy]
    rfl

/-- What a reported edit can come to.  It is refused and changes nothing, or it is made; and
then a named offset may leave its range, or a commit may follow. -/
theorem noteEdit_cases (workspace : Workspace) (source : DocumentId) (edit : Edit) :
    (∃ failure, workspace.noteEdit source edit = (.error failure, workspace)) ∨
      ∃ document edited, workspace.documents.find? source = some document ∧
        document.copyOf = none ∧ document.apply edit = .ok edited ∧
        ((∃ fault, (workspace.sessions.sweep (Session.carry source edit)).1 = .error fault ∧
            workspace.noteEdit source edit =
              (.error (.broken fault), workspace.withEdit source edit edited)) ∨
          (workspace.policy.commitOnEdit = false ∧
            workspace.noteEdit source edit = (.ok (), workspace.withEdit source edit edited)) ∨
          (workspace.policy.commitOnEdit = true ∧
            workspace.noteEdit source edit =
              (.ok (), (workspace.withEdit source edit edited).withCommit source edited))) := by
  rcases hfind : workspace.documents.find? source with _ | document
  · refine Or.inl ⟨.refused (.unknownDocument source), ?_⟩
    simp only [noteEdit, Store.get, hfind, refuse]
  · by_cases hcopy : document.copyOf = none
    · rcases happly : document.apply edit with failure | edited
      · refine Or.inl ⟨failure, ?_⟩
        simp only [noteEdit, Store.get, hfind, if_neg (not_not_intro hcopy), happly]
      · exact Or.inr ⟨document, edited, rfl, hcopy, happly, noteEdit_of_apply hfind hcopy happly⟩
    · refine Or.inl ⟨.refused (.needsSource source), ?_⟩
      simp only [noteEdit, Store.get, hfind, if_pos hcopy, refuse]

/-- Editing a span that cuts the text is the report of the edit that this is. -/
theorem edit_of_cut (hopen : workspace.documents.find? id = some document)
    (hcut : document.cut span = .ok parts) (text : String) :
    workspace.edit id span text =
      ((workspace.noteEdit id ⟨span.start, parts.inside, text⟩).1.map
          fun _ => ⟨span.start, parts.inside, text⟩,
        (workspace.noteEdit id ⟨span.start, parts.inside, text⟩).2) := by
  simp only [Workspace.edit, Store.get, hopen, hcut]
  rcases workspace.noteEdit id ⟨span.start, parts.inside, text⟩ with ⟨failure | _, noted⟩ <;> rfl

/-- Editing a span is refused, or it is the report of the edit that this is. -/
theorem edit_cases (workspace : Workspace) (id : DocumentId) (span : Span) (text : String) :
    (∃ refusal, workspace.edit id span text = workspace.refuse refusal) ∨
      ∃ document parts, workspace.documents.find? id = some document ∧
        document.cut span = .ok parts ∧
        workspace.edit id span text =
          ((workspace.noteEdit id ⟨span.start, parts.inside, text⟩).1.map
              fun _ => ⟨span.start, parts.inside, text⟩,
            (workspace.noteEdit id ⟨span.start, parts.inside, text⟩).2) := by
  rcases hfind : workspace.documents.find? id with _ | document
  · refine Or.inl ⟨.unknownDocument id, ?_⟩
    simp only [Workspace.edit, Store.get, hfind]
  · rcases hcut : document.cut span with refusal | parts
    · refine Or.inl ⟨refusal, ?_⟩
      simp only [Workspace.edit, Store.get, hfind, hcut]
    · exact Or.inr ⟨document, parts, rfl, hcut, edit_of_cut hfind hcut text⟩

/-! ### Starting -/

/-- With a new tracer under the next generation, and with its session. -/
def withTracer (workspace : Workspace) (tracer : Tracer) (session : Session) : Workspace :=
  { workspace with
    registry := (workspace.registry.nextGeneration.2.register tracer).2
    sessions := workspace.sessions.insert tracer.copy session }

@[simp] theorem activeFor?_withTracer {tracer : Tracer} {session : Session} :
    (workspace.withTracer tracer session).registry.activeFor? id =
      if id = tracer.copy then some tracer else workspace.registry.activeFor? id :=
  Registry.activeFor?_register

@[simp] theorem sessions_withTracer {tracer : Tracer} {session : Session} :
    (workspace.withTracer tracer session).sessions.find? id =
      if id = tracer.copy then some session else workspace.sessions.find? id :=
  Table.find?_insert workspace.sessions tracer.copy id session

/-- A text was put into the copy of a source: into the copy that was used before, if it is
still open, and into a new one if not.  Nothing else changed. -/
structure Placed (workspace : Workspace) (source : DocumentId) (text : String)
    (copy : DocumentId) (placed : Workspace) : Prop where
  registry : placed.registry = workspace.registry
  sessions : placed.sessions = workspace.sessions
  config : placed.config = workspace.config
  policy : placed.policy = workspace.policy
  copies : ∀ id, placed.copies.find? id =
    if id = source then some copy else workspace.copies.find? id
  documents :
    (∃ old, workspace.copies.find? source = some copy ∧
        workspace.documents.find? copy = some old ∧
        placed.documents = workspace.documents.put copy (old.setText text)) ∨
      (∀ id, workspace.copies.find? source = some id → workspace.documents.find? id = none) ∧
        copy = ⟨workspace.documents.nextIndex⟩ ∧
        placed.documents = (workspace.documents.add none text (some source)).2

theorem placed_reused {old : Document} {text : String}
    (hlisted : workspace.copies.find? source = some copy)
    (hopen : workspace.documents.find? copy = some old) :
    Placed workspace source text copy
      { workspace with documents := workspace.documents.put copy (old.setText text) } where
  registry := rfl
  sessions := rfl
  config := rfl
  policy := rfl
  copies id := by
    split
    · next heq => exact heq ▸ hlisted
    · rfl
  documents := Or.inl ⟨old, hlisted, hopen, rfl⟩

theorem placed_created {text : String}
    (hclosed : ∀ id, workspace.copies.find? source = some id →
      workspace.documents.find? id = none) :
    Placed workspace source text ⟨workspace.documents.nextIndex⟩
      { workspace with
        documents := (workspace.documents.add none text (some source)).2
        copies := workspace.copies.insert source ⟨workspace.documents.nextIndex⟩ } where
  registry := rfl
  sessions := rfl
  config := rfl
  policy := rfl
  copies id := Table.find?_insert workspace.copies source id _
  documents := Or.inr ⟨hclosed, rfl, rfl⟩

theorem placeCopy_of_open (hopen : workspace.documents.find? source = some document)
    (text : String) :
    ∃ copy placed, workspace.placeCopy source text = .ok (copy, placed) ∧
      Placed workspace source text copy placed := by
  have hcontains : workspace.documents.contains source = true := by
    simp [Store.contains, hopen]
  have hcreate : workspace.documents.createCopy source text =
      .ok (workspace.documents.add none text (some source)) := by
    simp only [Store.createCopy, hcontains, if_true]
  unfold placeCopy
  simp only [hcreate]
  rcases hlisted : workspace.copies.find? source with _ | copy
  · exact ⟨_, _, rfl, placed_created (by simp [hlisted])⟩
  · simp only
    rcases hcopy : workspace.documents.find? copy with _ | old
    · exact ⟨_, _, rfl, placed_created (by simp [hlisted, hcopy])⟩
    · exact ⟨_, _, rfl, placed_reused hlisted hcopy⟩

/-- Starting a completion on a source with a span that cuts its text: a copy is placed and a tracer
is registered for it. -/
theorem start_of_cut (hopen : workspace.documents.find? source = some document)
    (hcopy : document.copyOf = none) (hcut : document.cut span = .ok parts) (replacement : String) :
    ∃ copy placed, Placed workspace source (parts.replace replacement) copy placed ∧
      workspace.start source span replacement =
        (.ok ⟨source, copy, ⟨copy, ⟨workspace.registry.lastGeneration + 1⟩⟩,
            parts.replace replacement⟩,
          placed.withTracer
            (.start ⟨workspace.registry.lastGeneration + 1⟩ copy source
              ⟨span.start, parts.inside, replacement⟩ document.committed)
            (.start source span document.lines)) := by
  obtain ⟨copy, placed, hplace, hplaced⟩ := placeCopy_of_open hopen (parts.replace replacement)
  refine ⟨copy, placed, hplaced, ?_⟩
  simp only [start, Store.get, hopen, if_neg (not_not_intro hcopy), hcut, hplace,
    Registry.nextGeneration, hplaced.registry, Tracer.start, Tracer.handle, withTracer]

/-- Starting a completion is refused and changes nothing, or a copy is placed and a tracer
is registered for it. -/
theorem start_cases (workspace : Workspace) (source : DocumentId) (span : Span)
    (replacement : String) :
    (∃ refusal, workspace.start source span replacement = workspace.refuse refusal) ∨
      ∃ document parts copy placed, workspace.documents.find? source = some document ∧
        document.copyOf = none ∧ document.cut span = .ok parts ∧
        Placed workspace source (parts.replace replacement) copy placed ∧
        workspace.start source span replacement =
          (.ok ⟨source, copy, ⟨copy, ⟨workspace.registry.lastGeneration + 1⟩⟩,
              parts.replace replacement⟩,
            placed.withTracer
              (.start ⟨workspace.registry.lastGeneration + 1⟩ copy source
                ⟨span.start, parts.inside, replacement⟩ document.committed)
              (.start source span document.lines)) := by
  rcases hfind : workspace.documents.find? source with _ | document
  · refine Or.inl ⟨.unknownDocument source, ?_⟩
    simp only [start, Store.get, hfind]
  · by_cases hcopy : document.copyOf = none
    · rcases hcut : document.cut span with refusal | parts
      · refine Or.inl ⟨refusal, ?_⟩
        simp only [start, Store.get, hfind, if_neg (not_not_intro hcopy), hcut]
      · obtain ⟨copy, placed, hplaced, hstart⟩ := start_of_cut hfind hcopy hcut replacement
        exact Or.inr ⟨document, parts, copy, placed, rfl, hcopy, hcut, hplaced, hstart⟩
    · refine Or.inl ⟨.needsSource source, ?_⟩
      simp only [start, Store.get, hfind, if_pos hcopy]

/-- Starting at a caret fails and changes nothing, or it is starting with a span that the
caret and the text determine. -/
theorem startAt_cases (workspace : Workspace) (source : DocumentId) (caret : Nat) :
    (∃ failure, workspace.startAt source caret = (.error failure, workspace)) ∨
      ∃ document span, workspace.documents.find? source = some document ∧
        Span.between caret (Text.identifierEnd document.text caret) = .ok span ∧
        workspace.startAt source caret =
          workspace.start source span workspace.config.dummyIdentifier := by
  unfold startAt startAtRun Store.get Text.identifierEnd
  rcases hfind : workspace.documents.find? source with _ | document
  · exact Or.inl ⟨_, rfl⟩
  · simp only
    rcases hcut : document.cut (.caret caret) with refusal | parts
    · exact Or.inl ⟨_, rfl⟩
    · simp only
      rcases hspan : Span.between caret
          (Text.runEnd Text.continuesIdentifier document.text caret) with fault | span
      · exact Or.inl ⟨_, rfl⟩
      · exact Or.inr ⟨document, span, rfl, hspan, rfl⟩

/-! ### Opening and closing -/

/-- A document is opened in a workspace in which the sessions on the document under the path,
if there is one, have ended. -/
theorem openDocument_cases (workspace : Workspace) (path text : String) :
    (∃ id document, workspace.documents.idForPath? path = some id ∧
        workspace.documents.find? id = some document ∧ document.copyOf = none ∧
        workspace.openDocument path text =
          (((workspace.endSessionsOn id).documents.openPath path text).1,
            { workspace.endSessionsOn id with
              documents := ((workspace.endSessionsOn id).documents.openPath path text).2 })) ∨
      (∀ id document, workspace.documents.idForPath? path = some id →
          workspace.documents.find? id = some document → document.copyOf ≠ none) ∧
        workspace.openDocument path text =
          ((workspace.documents.openPath path text).1,
            { workspace with documents := (workspace.documents.openPath path text).2 }) := by
  unfold openDocument
  rcases hid : workspace.documents.idForPath? path with _ | id
  · exact Or.inr ⟨by simp, rfl⟩
  · simp only
    rcases hfind : workspace.documents.find? id with _ | document
    · refine Or.inr ⟨?_, rfl⟩
      intro other found hother hfound
      cases hother
      rw [hfind] at hfound
      cases hfound
    · simp only
      by_cases hcopy : document.copyOf = none
      · rw [if_pos hcopy]
        exact Or.inl ⟨id, document, rfl, hfind, hcopy, rfl⟩
      · rw [if_neg hcopy]
        refine Or.inr ⟨?_, rfl⟩
        intro other found hother hfound
        cases hother
        rw [hfind] at hfound
        cases hfound
        exact hcopy

/-- Closing a document that is not open changes nothing.  With a source go the sessions on it
and its copy, with a copy its session. -/
theorem closeDocument_cases (workspace : Workspace) (id : DocumentId) :
    (workspace.documents.find? id = none ∧ workspace.closeDocument id = (false, workspace)) ∨
      (∃ document, workspace.documents.find? id = some document ∧ document.copyOf = none ∧
        workspace.closeDocument id =
          (true, { workspace with documents := (workspace.documents.close id).2 }.endSessionsOn
            id)) ∨
      ∃ document source, workspace.documents.find? id = some document ∧
        document.copyOf = some source ∧
        let forgotten : Workspace :=
          { workspace with
            documents := (workspace.documents.close id).2
            copies := workspace.copies.erase source }
        (workspace.registry.activeFor? id = none ∧
            workspace.closeDocument id = (true, forgotten)) ∨
          ∃ tracer, workspace.registry.activeFor? id = some tracer ∧
            workspace.closeDocument id = (true, forgotten.withoutSession id) := by
  unfold closeDocument
  have hclose : workspace.documents.close id =
      (workspace.documents.find? id, (workspace.documents.close id).2) :=
    Prod.ext Store.close_fst rfl
  rw [hclose]
  rcases hfind : workspace.documents.find? id with _ | document
  · exact Or.inl ⟨rfl, rfl⟩
  · refine Or.inr ?_
    simp only
    rcases hcopy : document.copyOf with _ | source
    · exact Or.inl ⟨document, rfl, hcopy, rfl⟩
    · refine Or.inr ⟨document, source, rfl, hcopy, ?_⟩
      simp only
      rcases hactive : workspace.registry.activeFor? id with _ | tracer
      · exact Or.inl ⟨rfl, rfl⟩
      · refine Or.inr ⟨tracer, rfl, ?_⟩
        -- the handle made from the live tracer finds this tracer
        rcases dispose_cases
          { workspace with
            documents := (workspace.documents.close id).2
            copies := workspace.copies.erase source } ⟨id, tracer.id⟩ with
          ⟨hnone, -⟩ | ⟨found, -, hdispose⟩
        · have hlive : workspace.registry.find? ⟨id, tracer.id⟩ = some tracer :=
            Registry.find?_eq_some_iff.2 ⟨hactive, rfl⟩
          rw [hlive] at hnone
          cases hnone
        · simp only [hdispose]

end Retrace.Workspace
