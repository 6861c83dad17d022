import Retrace.Completion.Call
import Retrace.Proofs.Completion.Operations

/-!
# What a call can make of a workspace

`Effect` lists what calls do, on the workspace and past it on its documents, in terms of the few
workspaces that operations leave behind.  It needs no invariant, so it holds in every state
(`step_effect`).  What every call keeps is proved by cases of it, and no proof looks at the calls
one by one again.
-/

namespace Retrace.Workspace

variable {workspace : Workspace} {call : Call}

/-- What a call can make of a workspace.  Only closing and calls on the documents say which call it
was. -/
inductive Effect (workspace : Workspace) (call : Call) : Workspace → Prop
  | same : workspace.Effect call workspace
  | opened (path text : String) : workspace.Effect call
      { workspace with documents := (workspace.documents.openPath path text).2 }
  /-- The sessions on the document under the path end first. -/
  | reopened (id : DocumentId) (path text : String) : workspace.Effect call
      { workspace.endSessionsOn id with
        documents := ((workspace.endSessionsOn id).documents.openPath path text).2 }
  | closed {id : DocumentId} {document : Document} (hcall : call = .closeDocument id)
      (hopen : workspace.documents.find? id = some document) (hnocopy : document.copyOf = none) :
      workspace.Effect call
        ({ workspace with documents := (workspace.documents.close id).2 }.endSessionsOn id)
  /-- A copy without a session is closed. -/
  | closedCopy {id source : DocumentId} {document : Document} (hcall : call = .closeDocument id)
      (hopen : workspace.documents.find? id = some document)
      (hcopy : document.copyOf = some source) (hidle : workspace.registry.activeFor? id = none) :
      workspace.Effect call
        { workspace with
          documents := (workspace.documents.close id).2
          copies := workspace.copies.erase source }
  /-- A copy is closed with its session. -/
  | closedSession {id source : DocumentId} {document : Document}
      (hcall : call = .closeDocument id)
      (hopen : workspace.documents.find? id = some document)
      (hcopy : document.copyOf = some source) :
      workspace.Effect call
        ({ workspace with
            documents := (workspace.documents.close id).2
            copies := workspace.copies.erase source }.withoutSession id)
  | edited {source : DocumentId} {edit : Edit} {document edited : Document}
      (hopen : workspace.documents.find? source = some document)
      (happly : document.apply edit = .ok edited) :
      workspace.Effect call (workspace.withEdit source edit edited)
  /-- An edit is made, and its document is committed at once. -/
  | editedCommitted {source : DocumentId} {edit : Edit} {document edited : Document}
      (hopen : workspace.documents.find? source = some document)
      (happly : document.apply edit = .ok edited) :
      workspace.Effect call ((workspace.withEdit source edit edited).withCommit source edited)
  | committed {source : DocumentId} {document : Document}
      (hopen : workspace.documents.find? source = some document) :
      workspace.Effect call (workspace.withCommit source document)
  | started {source copy : DocumentId} {text : String} {creation : Edit} {document : Document}
      {placed : Workspace} {session : Session}
      (hopen : workspace.documents.find? source = some document)
      (hplaced : Placed workspace source text copy placed)
      (hturns : creation.Turns document.text text) :
      workspace.Effect call (placed.withTracer
        (.start ⟨workspace.registry.lastGeneration + 1⟩ copy source creation document.committed)
        session)
  | disposed (copy : DocumentId) : workspace.Effect call (workspace.withoutSession copy)
  | disposedAll : workspace.Effect call workspace.disposeAll
  | onDocuments {made : Store.Call} (hcall : call = .onDocuments made) : workspace.Effect call
      { workspace with documents := (workspace.documents.step made).2 }

theorem noteEdit_effect (workspace : Workspace) (source : DocumentId) (edit : Edit) :
    workspace.Effect call (workspace.noteEdit source edit).2 := by
  rcases workspace.noteEdit_cases source edit with
    ⟨failure, heq⟩ | ⟨document, edited, hopen, -, happly, ⟨fault, -, heq⟩ | ⟨-, heq⟩ | ⟨-, heq⟩⟩
  · rw [heq]
    exact .same
  · rw [heq]
    exact .edited hopen happly
  · rw [heq]
    exact .edited hopen happly
  · rw [heq]
    exact .editedCommitted hopen happly

theorem start_effect (workspace : Workspace) (source : DocumentId) (span : Span)
    (replacement : String) :
    workspace.Effect call (workspace.start source span replacement).2 := by
  rcases workspace.start_cases source span replacement with
    ⟨refusal, heq⟩ | ⟨document, parts, copy, placed, hopen, -, hcut, hplaced, heq⟩
  · rw [heq]
    exact .same
  · rw [heq]
    exact .started hopen hplaced (Document.turns_of_cut hcut)

theorem step_effect (workspace : Workspace) (call : Call) :
    workspace.Effect call (workspace.step call).2 := by
  cases call with
  | openDocument path text =>
      simp only [step]
      rcases workspace.openDocument_cases path text with ⟨id, document, -, -, -, heq⟩ | ⟨-, heq⟩
      · rw [heq]
        exact .reopened id path text
      · rw [heq]
        exact .opened path text
  | closeDocument id =>
      simp only [step]
      rcases workspace.closeDocument_cases id with
        ⟨-, heq⟩ | ⟨document, hopen, hnocopy, heq⟩ | ⟨document, source, hopen, hcopy, hmade⟩
      · rw [heq]
        exact .same
      · rw [heq]
        exact .closed rfl hopen hnocopy
      · rcases hmade with ⟨hidle, heq⟩ | ⟨tracer, -, heq⟩
        · rw [heq]
          exact .closedCopy rfl hopen hcopy hidle
        · rw [heq]
          exact .closedSession rfl hopen hcopy
  | noteEdit source edit => exact noteEdit_effect workspace source edit
  | edit id span text =>
      simp only [step]
      rcases workspace.edit_cases id span text with ⟨refusal, heq⟩ | ⟨document, parts, -, -, heq⟩
      · rw [heq]
        exact .same
      · rw [heq]
        exact noteEdit_effect workspace id ⟨span.start, parts.inside, text⟩
  | commit source =>
      simp only [step]
      rcases workspace.commit_cases source with ⟨-, heq⟩ | ⟨document, count, hopen, heq⟩
      · rw [heq]
        exact .same
      · rw [heq]
        exact .committed hopen
  | start source span replacement => exact start_effect workspace source span replacement
  | startAt source caret =>
      simp only [step]
      rcases workspace.startAt_cases source caret with ⟨failure, heq⟩ | ⟨document, span, -, -, heq⟩
      · rw [heq]
        exact .same
      · rw [heq]
        exact start_effect workspace source span workspace.config.dummyIdentifier
  | dispose handle =>
      simp only [step]
      rcases workspace.dispose_cases handle with ⟨-, heq⟩ | ⟨tracer, -, heq⟩
      · rw [heq]
        exact .same
      · rw [heq]
        exact .disposed handle.copy
  | disposeAll => exact .disposedAll
  | onDocuments call => exact .onDocuments rfl

end Retrace.Workspace
