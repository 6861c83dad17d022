import Retrace.Proofs.Completion.Isolation

/-!
# Workspaces without their commits

A commit moves a border: what was staged is in the log afterwards, the committed stamp and the
baselines follow, and sessions take over lines.  `Workspace.plain` forgets where the border is.  The
committed stamp of a source becomes the stamp of its last change, everything staged is moved to the
logs, baselines and lines are forgotten, and so is the policy.

Committing a source changes nothing of the plain workspace (`plain_withCommit`).  Every other call
has the same reply on a workspace and on its plain form, and what comes out has one plain form
(`alike_step`).  So commits can be left out of a run without changing any other reply.
-/

namespace Retrace

/-! ### Documents -/

namespace Document

variable {document : Document} {edit : Edit} {span : Span} {text : String}

/-- The document with all changes committed, if it is no copy. -/
def plain (document : Document) : Document :=
  if document.copyOf = none then document.commit else document

@[simp] theorem id_plain : document.plain.id = document.id := by
  unfold plain
  split <;> rfl

@[simp] theorem path_plain : document.plain.path = document.path := by
  unfold plain
  split <;> rfl

@[simp] theorem text_plain : document.plain.text = document.text := by
  unfold plain
  split <;> rfl

@[simp] theorem copyOf_plain : document.plain.copyOf = document.copyOf := by
  unfold plain
  split <;> rfl

@[simp] theorem length_plain : document.plain.length = document.length := by
  simp [length]

@[simp] theorem plain_plain : document.plain.plain = document.plain := by
  by_cases hcopy : document.copyOf = none <;> simp [plain, commit, hcopy]

theorem commit_of_committed_eq (h : document.committed = document.modified) :
    document.commit = document := by
  cases document
  cases h
  rfl

theorem plain_commit (hcopy : document.copyOf = none) : document.commit.plain = document.plain := by
  simp [plain, commit, hcopy]

theorem plain_setText (document : Document) (text : String) :
    (document.plain.setText text).plain = (document.setText text).plain := by
  by_cases hcopy : document.copyOf = none <;> simp [plain, commit, setText, hcopy]

@[simp] theorem plain_fresh {id : DocumentId} {path : Option String} {copyOf : Option DocumentId} :
    (fresh id path text copyOf).plain = fresh id path text copyOf := by
  unfold plain
  split <;> rfl

@[simp] theorem cut_plain : document.plain.cut span = document.cut span := by
  simp [cut]

/-- What an edit does depends on the name and on the text alone. -/
theorem apply_plain (document : Document) (edit : Edit) :
    document.plain.apply edit =
      (document.apply edit).map fun edited => document.plain.setText edited.text := by
  unfold apply
  rcases edit.removedSpan with fault | span
  · rfl
  · simp only [cut_plain, id_plain]
    rcases document.cut span with refusal | parts
    · rfl
    · simp only
      split <;> rfl

end Document

namespace Store

variable {store : Store} {id : DocumentId} {document : Document} {path text : String}

def plain (store : Store) : Store :=
  { store with documents := store.documents.map fun _ => Document.plain }

@[simp] theorem find?_plain : store.plain.find? id = (store.find? id).map Document.plain :=
  Table.find?_map store.documents _ id

@[simp] theorem idForPath?_plain : store.plain.idForPath? path = store.idForPath? path := rfl

@[simp] theorem contains_plain : store.plain.contains id = store.contains id := by
  simp [contains]

@[simp] theorem plain_plain : store.plain.plain = store.plain := by
  unfold plain
  simp [Table.map_map]

theorem plain_put (store : Store) (id : DocumentId) (document : Document) :
    (store.put id document).plain = store.plain.put id document.plain := by
  unfold plain put
  simp only [Table.map_insert]

theorem plain_add (store : Store) (path : Option String) (text : String)
    (copyOf : Option DocumentId) :
    (store.add path text copyOf).2.plain = (store.plain.add path text copyOf).2 := by
  unfold add
  simp only [plain, put, Table.map_insert, Document.plain_fresh]

theorem plain_openFresh (store : Store) (path text : String) :
    (store.openFresh path text).2.plain = (store.plain.openFresh path text).2 := by
  unfold openFresh add
  simp only [plain, put, Table.map_insert, Document.plain_fresh]

theorem close_plain (store : Store) (id : DocumentId) :
    store.plain.close id = ((store.close id).1.map Document.plain, (store.close id).2.plain) := by
  unfold close
  rw [find?_plain]
  rcases store.find? id with _ | document
  · rfl
  · simp only [Option.map_some, Document.path_plain]
    rcases document.path with _ | path <;> simp only [plain, Table.map_erase, Option.map_some]

end Store

/-! ### Tracers and sessions -/

namespace Tracer

variable {tracer : Tracer}

/-- The tracer with everything merged and with its baseline forgotten. -/
def plain (tracer : Tracer) : Tracer := tracer.drained .initial

@[simp] theorem id_plain : tracer.plain.id = tracer.id := rfl

@[simp] theorem source_plain : tracer.plain.source = tracer.source := rfl

@[simp] theorem plain_plain : tracer.plain.plain = tracer.plain := drained_drained

theorem plain_record (tracer : Tracer) (edit : Edit) :
    (tracer.plain.record edit).plain = (tracer.record edit).plain := by
  simp [plain, drained, record, Log.append]

@[simp] theorem plain_drained {stamp : Stamp} : (tracer.drained stamp).plain = tracer.plain :=
  drained_drained

theorem plain_mergeStaged (tracer : Tracer) (stamp : Stamp) (policy : CommitPolicy) :
    (tracer.mergeStaged stamp policy).2.plain = tracer.plain := by
  rcases tracer.mergeStaged_cases stamp policy with ⟨-, heq⟩ | ⟨-, heq⟩
  · rw [heq]
    exact plain_drained
  · rw [heq]

/-- With nothing staged, only the baseline is forgotten. -/
theorem eq_of_plain_eq {other : Tracer} (hplain : tracer.plain = other.plain)
    (hstaged : tracer.staged = []) (hstaged' : other.staged = [])
    (hbaseline : tracer.baseline = other.baseline) : tracer = other :=
  calc tracer = tracer.plain.drained tracer.baseline := by
        rw [plain, drained_drained, drained_of_staged_eq_nil hstaged rfl]
    _ = other.plain.drained other.baseline := by rw [hplain, hbaseline]
    _ = other := by rw [plain, drained_drained, drained_of_staged_eq_nil hstaged' rfl]

end Tracer

namespace Registry

variable {registry : Registry} {copy source : DocumentId} {handle : Handle}

def plain (registry : Registry) : Registry :=
  { registry with active := registry.active.map fun _ => Tracer.plain }

@[simp] theorem activeFor?_plain :
    registry.plain.activeFor? copy = (registry.activeFor? copy).map Tracer.plain :=
  Table.find?_map registry.active _ copy

@[simp] theorem find?_plain :
    registry.plain.find? handle = (registry.find? handle).map Tracer.plain := by
  unfold find?
  rw [activeFor?_plain]
  rcases registry.activeFor? handle.copy with _ | tracer
  · rfl
  · by_cases hid : tracer.id = handle.generation <;> simp [Option.filter, hid]

@[simp] theorem plain_plain : registry.plain.plain = registry.plain := by
  unfold plain
  simp [Table.map_map]

theorem plain_record (registry : Registry) (source : DocumentId) (edit : Edit) :
    (registry.plain.record source edit).plain = (registry.record source edit).plain := by
  unfold plain record mapTo
  simp only [Table.map_map]
  congr 2
  funext copy tracer
  by_cases hto : tracer.source = source
  · rw [if_pos (Tracer.source_plain.trans hto), if_pos hto, tracer.plain_record]
  · rw [if_neg (Tracer.source_plain.symm ▸ hto), if_neg hto, Tracer.plain_plain]

theorem plain_mergeStaged (registry : Registry) (source : DocumentId) (stamp : Stamp)
    (policy : CommitPolicy) :
    (registry.mergeStaged source stamp policy).2.plain = registry.plain := by
  unfold plain mergeStaged mapTo
  simp only [Table.map_map]
  congr 2
  funext copy tracer
  split
  · exact tracer.plain_mergeStaged stamp policy
  · rfl

theorem plain_disposeSource (registry : Registry) (source : DocumentId) :
    (registry.disposeSource source).2.plain = (registry.plain.disposeSource source).2 := by
  unfold plain disposeSource
  simp only
  congr 1
  exact Table.map_filter fun _ _ => rfl

end Registry

namespace Session

variable {session : Session}

/-- The session with its lines forgotten. -/
def plain (session : Session) : Session := { session with frame := .ofText "" }

@[simp] theorem source_plain : session.plain.source = session.source := rfl

@[simp] theorem plain_plain : session.plain.plain = session.plain := rfl

theorem carry_plain (source : DocumentId) (edit : Edit) (session : Session) :
    session.plain.carry source edit =
      ((session.carry source edit).1, (session.carry source edit).2.plain) := by
  unfold carry
  by_cases hon : session.source = source
  · rw [if_pos (source_plain.trans hon), if_pos hon]
    rfl
  · rw [if_neg (source_plain.symm ▸ hon), if_neg hon]

end Session

/-! ### Workspaces -/

namespace Workspace

variable {workspace placed : Workspace} {source copy id : DocumentId} {document edited : Document}
  {edit : Edit} {call : Call}

/-- The workspace with its commits forgotten. -/
def plain (workspace : Workspace) : Workspace where
  documents := workspace.documents.plain
  registry := workspace.registry.plain
  copies := workspace.copies
  sessions := workspace.sessions.map fun _ => Session.plain
  config := { workspace.config with commit := .onStampAdvance }
  policy := .never

@[simp] theorem plain_plain : workspace.plain.plain = workspace.plain := by
  unfold plain
  simp [Table.map_map]

/-- The same answer, and workspaces that differ by commits alone. -/
def Alike {α : Type} (left right : α × Workspace) : Prop :=
  left.1 = right.1 ∧ left.2.plain = right.2.plain

theorem alike_plain {α : Type} (answer : α) (workspace : Workspace) :
    Alike (answer, workspace.plain) (answer, workspace) := ⟨rfl, plain_plain⟩

theorem Alike.map {α β : Type} {left right : α × Workspace} (h : Alike left right) (f : α → β) :
    Alike (f left.1, left.2) (f right.1, right.2) := ⟨congrArg f h.1, h.2⟩

theorem find?_documents_plain (hopen : workspace.documents.find? id = some document) :
    workspace.plain.documents.find? id = some document.plain :=
  Store.find?_plain.trans (by rw [hopen]; rfl)

theorem find?_documents_plain_eq_none (hclosed : workspace.documents.find? id = none) :
    workspace.plain.documents.find? id = none :=
  Store.find?_plain.trans (by rw [hclosed]; rfl)

/-! ### What operations leave behind -/

theorem plain_withEdit {later : Document} (hlater : later.plain = edited.plain) :
    (workspace.plain.withEdit source edit later).plain =
      (workspace.withEdit source edit edited).plain := by
  have hsessions := Table.sweep_map workspace.sessions (Session.carry_plain source edit)
  unfold withEdit
  simp only [plain, hsessions, Store.plain_put, Store.plain_plain, hlater, Registry.plain_record,
    Table.map_map, Session.plain_plain]

theorem plain_refreshed {registry : Registry} {frame : Lines} {session : Session} :
    (refreshed registry source frame copy session).plain = session.plain := by
  unfold refreshed
  split
  · rfl
  · split <;> rfl

/-- Committing a source changes only what is forgotten. -/
theorem plain_withCommit (hopen : workspace.documents.find? source = some document)
    (hcopy : document.copyOf = none) :
    (workspace.withCommit source document).plain = workspace.plain := by
  have hdocuments : (workspace.documents.put source document.commit).plain =
      workspace.documents.plain := by
    rw [Store.plain_put, Document.plain_commit hcopy]
    exact congrArg (fun documents => { workspace.documents.plain with documents })
      (Table.insert_eq_self (find?_documents_plain hopen))
  rw [withCommit_eq]
  simp only [plain, hdocuments, Registry.plain_mergeStaged, Table.map_map, plain_refreshed]

theorem plain_withoutSession (workspace : Workspace) (copy : DocumentId) :
    (workspace.withoutSession copy).plain = workspace.plain.withoutSession copy := by
  unfold withoutSession
  simp only [plain, Registry.plain, Table.map_erase]

theorem plain_endSessionsOn (workspace : Workspace) (source : DocumentId) :
    (workspace.endSessionsOn source).plain = workspace.plain.endSessionsOn source := by
  have hsessions : (workspace.sessions.filter fun _ session => session.source ≠ source).map
      (fun _ => Session.plain) =
        (workspace.sessions.map fun _ => Session.plain).filter
          fun _ session => session.source ≠ source := Table.map_filter fun _ _ => rfl
  unfold endSessionsOn
  have hcopies : workspace.plain.copies = workspace.copies := rfl
  rw [hcopies]
  rcases workspace.copies.find? source with _ | copy
  · simp only [plain, Registry.plain_disposeSource, hsessions]
  · simp only [plain, Registry.plain_disposeSource, hsessions, Store.close_plain]

theorem plain_withTracer (workspace : Workspace) (tracer : Tracer) (session : Session) :
    (workspace.withTracer tracer session).plain =
      workspace.plain.withTracer tracer.plain session.plain := by
  unfold withTracer
  simp only [plain, Registry.plain, Registry.register, Registry.nextGeneration, Table.map_insert]
  rfl

/-! ### Calls one by one -/

theorem get_plain (workspace : Workspace) (id : DocumentId) :
    workspace.plain.documents.get id = (workspace.documents.get id).map Document.plain := by
  unfold Store.get
  rw [show workspace.plain.documents = workspace.documents.plain from rfl, Store.find?_plain]
  rcases workspace.documents.find? id with _ | document <;> rfl

theorem alike_dispose (workspace : Workspace) (handle : Handle) :
    Alike (workspace.plain.dispose handle) (workspace.dispose handle) := by
  have hplain : workspace.plain.registry.find? handle =
      (workspace.registry.find? handle).map Tracer.plain := Registry.find?_plain
  rcases workspace.dispose_cases handle with ⟨hnone, heq⟩ | ⟨tracer, hfind, heq⟩
  · rcases workspace.plain.dispose_cases handle with ⟨-, heq'⟩ | ⟨found, hfind', -⟩
    · rw [heq, heq']
      exact alike_plain false workspace
    · rw [hplain, hnone] at hfind'
      cases hfind'
  · rcases workspace.plain.dispose_cases handle with ⟨hnone', -⟩ | ⟨found, -, heq'⟩
    · rw [hplain, hfind] at hnone'
      cases hnone'
    · rw [heq, heq', ← plain_withoutSession]
      exact alike_plain true _

theorem plain_disposeAll (workspace : Workspace) :
    workspace.disposeAll.plain = workspace.plain.disposeAll := by
  have hclosed : ∀ (ids : List DocumentId) (store : Store),
      (ids.foldl (fun store copy => (store.close copy).2) store).plain =
        ids.foldl (fun store copy => (store.close copy).2) store.plain := by
    intro ids
    induction ids with
    | nil => exact fun _ => rfl
    | cons id rest ih =>
        intro store
        rw [List.foldl_cons, List.foldl_cons, ih, Store.close_plain]
  unfold disposeAll
  simp only [plain, hclosed]
  rfl

theorem alike_openPath (workspace : Workspace) (path text : String) :
    Alike ((workspace.plain.documents.openPath path text).1,
        { workspace.plain with documents := (workspace.plain.documents.openPath path text).2 })
      ((workspace.documents.openPath path text).1,
        { workspace with documents := (workspace.documents.openPath path text).2 }) := by
  have hfresh : Alike ((workspace.plain.documents.openFresh path text).1,
        { workspace.plain with documents := (workspace.plain.documents.openFresh path text).2 })
      ((workspace.documents.openFresh path text).1,
        { workspace with documents := (workspace.documents.openFresh path text).2 }) := by
    have hopened := Store.plain_openFresh workspace.documents path text
    refine ⟨rfl, ?_⟩
    rw [show { workspace.plain with
      documents := (workspace.plain.documents.openFresh path text).2 } =
        ({ workspace with documents := (workspace.documents.openFresh path text).2 } :
          Workspace).plain from
      congrArg (fun documents => { workspace.plain with documents }) hopened.symm]
    exact plain_plain
  unfold Store.openPath
  rw [show workspace.plain.documents = workspace.documents.plain from rfl, Store.idForPath?_plain]
  rcases workspace.documents.idForPath? path with _ | id
  · exact hfresh
  · simp only [Store.find?_plain]
    rcases workspace.documents.find? id with _ | document
    · exact hfresh
    · refine ⟨rfl, ?_⟩
      simp only [Option.map_some, plain, Store.plain_put, Document.plain_setText, Store.plain_plain,
        Registry.plain_plain, Table.map_map, Session.plain_plain]

theorem alike_openDocument (workspace : Workspace) (path text : String) :
    Alike (workspace.plain.openDocument path text) (workspace.openDocument path text) := by
  unfold openDocument
  rw [show workspace.plain.documents = workspace.documents.plain from rfl, Store.idForPath?_plain]
  rcases workspace.documents.idForPath? path with _ | id
  · exact alike_openPath workspace path text
  · simp only [Store.find?_plain]
    rcases workspace.documents.find? id with _ | document
    · exact alike_openPath workspace path text
    · simp only [Option.map_some, Document.copyOf_plain]
      split
      · rw [← plain_endSessionsOn]
        exact alike_openPath _ path text
      · exact alike_openPath workspace path text

theorem alike_closeDocument (workspace : Workspace) (id : DocumentId) :
    Alike (workspace.plain.closeDocument id) (workspace.closeDocument id) := by
  unfold closeDocument
  rw [show workspace.plain.documents = workspace.documents.plain from rfl, Store.close_plain]
  rcases workspace.documents.close id with ⟨_ | document, documents⟩
  · exact alike_plain false workspace
  · simp only [Option.map_some, Document.copyOf_plain]
    have hclosed : ∀ copies, ({ workspace.plain with
        documents := documents.plain, copies := copies } : Workspace) =
          ({ workspace with documents := documents, copies := copies } : Workspace).plain :=
      fun _ => rfl
    rcases document.copyOf with _ | source
    · refine ⟨rfl, ?_⟩
      simp only
      rw [hclosed, ← plain_endSessionsOn, plain_plain]
      rfl
    · have hactive : workspace.plain.registry.activeFor? id =
          (workspace.registry.activeFor? id).map Tracer.plain := Registry.activeFor?_plain
      simp only [hactive]
      rcases workspace.registry.activeFor? id with _ | tracer
      · exact alike_plain true _
      · have hdisposed := alike_dispose
          { workspace with documents := documents, copies := workspace.copies.erase source }
          ⟨id, tracer.id⟩
        exact ⟨rfl, hdisposed.2⟩

/-- An edit of a source, with the commit that the policy may want, is carried into the sessions in
the plain workspace as in the workspace. -/
theorem alike_noteEdit_of_apply (hopen : workspace.documents.find? source = some document)
    (hcopy : document.copyOf = none) (happly : document.apply edit = .ok edited) :
    Alike (workspace.plain.noteEdit source edit) (workspace.noteEdit source edit) := by
  have hopen' := find?_documents_plain hopen
  have hcopy' : document.plain.copyOf = none := Document.copyOf_plain.trans hcopy
  have happly' : document.plain.apply edit = .ok (document.plain.setText edited.text) := by
    rw [document.apply_plain, happly]
    rfl
  obtain ⟨-, text, -, rfl⟩ := Document.apply_eq_ok_iff.1 happly
  have hedited := document.plain_setText text
  have hnocopy : (document.setText text).copyOf = none := hcopy
  have hsweep := Table.sweep_map workspace.sessions (Session.carry_plain source edit)
  rcases hswept : (workspace.sessions.sweep (Session.carry source edit)).1 with fault | _
  · rw [noteEdit_of_fault hopen hcopy happly hswept,
      noteEdit_of_fault hopen' hcopy' happly' ((congrArg Prod.fst hsweep).trans hswept)]
    exact ⟨rfl, plain_withEdit hedited⟩
  · rw [noteEdit_of_swept hopen hcopy happly hswept,
      noteEdit_of_swept hopen' hcopy' happly' ((congrArg Prod.fst hsweep).trans hswept)]
    refine ⟨rfl, (plain_withEdit hedited).trans ?_⟩
    simp only
    split
    · exact (plain_withCommit find?_source_withEdit hnocopy).symm
    · rfl

theorem alike_noteEdit (workspace : Workspace) (source : DocumentId) (edit : Edit) :
    Alike (workspace.plain.noteEdit source edit) (workspace.noteEdit source edit) := by
  rcases hfind : workspace.documents.find? source with _ | document
  · simp only [noteEdit, Store.get, hfind, find?_documents_plain_eq_none hfind]
    exact alike_plain _ workspace
  · have hfind' := find?_documents_plain hfind
    by_cases hcopy : document.copyOf = none
    · rcases happly : document.apply edit with failure | edited
      · have hcopy' : document.plain.copyOf = none := Document.copyOf_plain.trans hcopy
        have happly' : document.plain.apply edit = .error failure := by
          rw [document.apply_plain, happly]
          rfl
        simp only [noteEdit, Store.get, hfind, hfind', if_neg (not_not_intro hcopy),
          if_neg (not_not_intro hcopy'), happly, happly']
        exact alike_plain _ workspace
      · exact alike_noteEdit_of_apply hfind hcopy happly
    · have hcopy' : ¬ document.plain.copyOf = none := Document.copyOf_plain.symm ▸ hcopy
      simp only [noteEdit, Store.get, hfind, hfind', if_pos hcopy, if_pos hcopy']
      exact alike_plain _ workspace

theorem alike_edit (workspace : Workspace) (id : DocumentId) (span : Span) (text : String) :
    Alike (workspace.plain.edit id span text) (workspace.edit id span text) := by
  rcases hfind : workspace.documents.find? id with _ | document
  · simp only [Workspace.edit, Store.get, hfind, find?_documents_plain_eq_none hfind]
    exact alike_plain _ workspace
  · have hfind' := find?_documents_plain hfind
    rcases hcut : document.cut span with refusal | parts
    · have hcut' : document.plain.cut span = .error refusal := Document.cut_plain.trans hcut
      simp only [Workspace.edit, Store.get, hfind, hfind', hcut, hcut']
      exact alike_plain _ workspace
    · rw [edit_of_cut hfind hcut, edit_of_cut hfind' (Document.cut_plain.trans hcut)]
      exact (alike_noteEdit workspace id _).map _

/-- A text is placed in the plain workspace as it is in the workspace. -/
theorem placeCopy_plain (workspace : Workspace) (source : DocumentId) (text : String) :
    (∃ refusal, workspace.plain.placeCopy source text = .error refusal ∧
        workspace.placeCopy source text = .error refusal) ∨
      ∃ copy placed placed', workspace.plain.placeCopy source text = .ok (copy, placed) ∧
        workspace.placeCopy source text = .ok (copy, placed') ∧
        placed.plain = placed'.plain := by
  have hcopies : workspace.plain.copies = workspace.copies := rfl
  have hcontains : workspace.plain.documents.contains source =
      workspace.documents.contains source := Store.contains_plain
  have hfind : ∀ copy, workspace.plain.documents.find? copy =
      (workspace.documents.find? copy).map Document.plain := fun _ => Store.find?_plain
  have hcreated : ∀ copies, ({ workspace.plain with
      documents := (workspace.plain.documents.add none text (some source)).2
      copies := copies } : Workspace).plain =
        ({ workspace with
          documents := (workspace.documents.add none text (some source)).2
          copies := copies } : Workspace).plain := by
    intro copies
    simp only [plain, Store.plain_add, Store.plain_plain, Registry.plain_plain, Table.map_map,
      Session.plain_plain]
  have hreused : ∀ copy (old : Document), ({ workspace.plain with
      documents := workspace.plain.documents.put copy (old.plain.setText text) } :
        Workspace).plain =
        ({ workspace with
          documents := workspace.documents.put copy (old.setText text) } : Workspace).plain := by
    intro copy old
    simp only [plain, Store.plain_put, Store.plain_plain, Document.plain_setText,
      Registry.plain_plain, Table.map_map, Session.plain_plain]
  unfold placeCopy Store.createCopy
  simp only [hcopies, hcontains]
  by_cases hopen : workspace.documents.contains source = true
  · refine Or.inr ?_
    simp only [if_pos hopen]
    rcases workspace.copies.find? source with _ | copy
    · exact ⟨_, _, _, rfl, rfl, hcreated _⟩
    · simp only [hfind]
      rcases workspace.documents.find? copy with _ | old
      · exact ⟨_, _, _, rfl, rfl, hcreated _⟩
      · exact ⟨copy, _, _, rfl, rfl, hreused copy old⟩
  · simp only [if_neg hopen]
    rcases workspace.copies.find? source with _ | copy
    · exact Or.inl ⟨_, rfl, rfl⟩
    · simp only [hfind]
      rcases workspace.documents.find? copy with _ | old
      · exact Or.inl ⟨_, rfl, rfl⟩
      · exact Or.inr ⟨copy, _, _, rfl, rfl, hreused copy old⟩

theorem alike_start (workspace : Workspace) (source : DocumentId) (span : Span)
    (replacement : String) :
    Alike (workspace.plain.start source span replacement)
      (workspace.start source span replacement) := by
  unfold start
  rw [get_plain]
  rcases workspace.documents.get source with refusal | document
  · exact alike_plain _ workspace
  · simp only [Except.map, Document.copyOf_plain, Document.cut_plain]
    split
    · exact alike_plain _ workspace
    · rcases document.cut span with refusal | parts
      · exact alike_plain _ workspace
      · simp only
        rcases workspace.placeCopy_plain source (parts.replace replacement) with
          ⟨refusal, heq, heq'⟩ | ⟨copy, placed, placed', heq, heq', hplaced⟩
        · simp only [heq, heq']
          exact alike_plain _ workspace
        · -- the number that is given out does not depend on commits
          have hgiven : placed.registry.lastGeneration = placed'.registry.lastGeneration :=
            congrArg (fun w => w.registry.lastGeneration) hplaced
          simp only [heq, heq']
          refine ⟨?_, ?_⟩
          · simp only [Registry.nextGeneration, Tracer.start, Tracer.handle, hgiven]
          · have hforgotten : placed.plain.withTracer
                (Tracer.start placed.registry.nextGeneration.1 copy source
                  ⟨span.start, parts.inside, replacement⟩ document.plain.committed).plain
                (Session.start source span document.plain.lines).plain =
              placed'.plain.withTracer
                (Tracer.start placed'.registry.nextGeneration.1 copy source
                  ⟨span.start, parts.inside, replacement⟩ document.committed).plain
                (Session.start source span document.lines).plain := by
              rw [hplaced]
              simp only [Registry.nextGeneration, hgiven]
              rfl
            exact (plain_withTracer placed _ _).trans
              (hforgotten.trans (plain_withTracer placed' _ _).symm)

theorem alike_startAt (workspace : Workspace) (source : DocumentId) (caret : Nat) :
    Alike (workspace.plain.startAt source caret) (workspace.startAt source caret) := by
  unfold startAt startAtRun
  rw [get_plain]
  rcases workspace.documents.get source with refusal | document
  · exact alike_plain _ workspace
  · simp only [Except.map, Document.cut_plain, Document.text_plain]
    rcases document.cut (.caret caret) with refusal | parts
    · exact alike_plain _ workspace
    · simp only
      rcases Span.between caret (Text.runEnd _ document.text caret) with fault | span
      · exact alike_plain _ workspace
      · exact alike_start workspace source span workspace.config.dummyIdentifier

/-- The document that a call commits. -/
def Call.committed? : Call → Option DocumentId
  | .commit id => some id
  | _ => none

def Call.isCommit (call : Call) : Bool := call.committed?.isSome

/-- A call that is no commit has the same reply without the commits before it. -/
theorem alike_step (workspace : Workspace) (hown : call.isOwn = true)
    (hcommit : call.isCommit = false) :
    Alike (workspace.plain.step call) (workspace.step call) := by
  cases call with
  | openDocument path text => exact (alike_openDocument workspace path text).map _
  | closeDocument id => exact (alike_closeDocument workspace id).map _
  | noteEdit source edit => exact (alike_noteEdit workspace source edit).map _
  | edit id span text => exact (alike_edit workspace id span text).map _
  | commit source => cases hcommit
  | start source span replacement => exact (alike_start workspace source span replacement).map _
  | startAt source caret => exact (alike_startAt workspace source caret).map _
  | dispose handle => exact (alike_dispose workspace handle).map _
  | disposeAll =>
      refine ⟨rfl, ?_⟩
      simp only [step]
      rw [← plain_disposeAll, plain_plain]
  | onDocuments call => cases hown

/-- A commit of what is no copy changes only what is forgotten. -/
theorem plain_commit (hcopy : workspace.copyOf? id = none) :
    (workspace.commit id).2.plain = workspace.plain := by
  rcases workspace.commit_cases id with ⟨-, heq⟩ | ⟨document, count, hopen, heq⟩
  · rw [heq]
    rfl
  · rw [heq]
    exact plain_withCommit hopen (copyOf?_of_open hopen ▸ hcopy)

end Workspace

end Retrace
