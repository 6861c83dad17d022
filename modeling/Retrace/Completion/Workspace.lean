import Retrace.Completion.Config
import Retrace.Completion.Session
import Retrace.Document.Store
import Retrace.Text.Identifier
import Retrace.Tracer.Registry

/-!
# The workspace

A workspace holds the open documents and everything that completion keeps about
them.  A completion works on a copy of a document in which a span is replaced,
mostly by a dummy identifier at the caret.  The document is the source of the copy.
The workspace makes the copy, and from then on answers where places of the copy are
in the source, however the source is edited meanwhile.

Completions on one source use one copy, each of them in place of the one before.
The calls are plain functions from a workspace to an answer and a workspace.  Whether
a failed call leaves the workspace alone is therefore a question about the second
part of the result, and a call that breaks off in the middle hands out what it had
done by then.
-/

namespace Retrace

structure Completion where
  source : DocumentId
  copy : DocumentId
  handle : Handle
  text : String
  deriving DecidableEq, Repr

/-- Documents, their copies, and the way back from each copy. -/
structure Workspace where
  documents : Store
  registry : Registry
  /-- The copy that completions on a document use. -/
  copies : Table DocumentId DocumentId
  sessions : Table DocumentId Session
  config : Config
  policy : CommitPolicy

/-- The answer of a call, and the workspace after it. -/
abbrev Outcome (α : Type) := Except Failure α × Workspace

namespace Workspace

/-- An empty workspace, with the policy that the settings ask for. -/
def withConfig (config : Config) : Workspace := ⟨∅, ∅, ∅, ∅, config, config.commit.policy⟩

def empty : Workspace := withConfig .default

def withPolicy (workspace : Workspace) (policy : CommitPolicy) : Workspace :=
  { workspace with policy }

/-- A call that was refused and changed nothing. -/
def refuse {α : Type} (workspace : Workspace) (refusal : Refusal) : Outcome α :=
  (.error (.refused refusal), workspace)

/-! ### Ending sessions -/

/-- Take out the tracer that a handle means, and its session.  The answer says
    whether there was one. -/
def dispose (workspace : Workspace) (handle : Handle) : Bool × Workspace :=
  match workspace.registry.dispose handle with
  | (none, _) => (false, workspace)
  | (some _, registry) =>
      (true, { workspace with registry, sessions := workspace.sessions.erase handle.copy })

/-- End all sessions on a document and close the copy that they used. -/
def endSessionsOn (workspace : Workspace) (source : DocumentId) : Workspace :=
  let ended : Workspace :=
    { workspace with
      registry := (workspace.registry.disposeSource source).2
      sessions := workspace.sessions.filter fun _ session => session.source ≠ source }
  match workspace.copies.find? source with
  | none => ended
  | some copy =>
      { ended with
        copies := workspace.copies.erase source
        documents := (workspace.documents.close copy).2 }

/-- End all sessions and close all copies that completions use. -/
def disposeAll (workspace : Workspace) : Workspace :=
  { workspace with
    registry := workspace.registry.clear
    sessions := ∅
    copies := ∅
    documents :=
      workspace.copies.values.foldl (fun store copy => (store.close copy).2) workspace.documents }

/-! ### Documents -/

/-- Open a document under a path.  If one is open there, it gets the new text, and all
    sessions on it end. -/
def openDocument (workspace : Workspace) (path text : String) : DocumentId × Workspace :=
  let ready :=
    match workspace.documents.idForPath? path with
    | none => workspace
    | some id =>
        match workspace.documents.find? id with
        | none => workspace
        | some document =>
            if document.copyOf = none then workspace.endSessionsOn id else workspace
  let opened := ready.documents.openPath path text
  (opened.1, { ready with documents := opened.2 })

/-- Close a document.  All sessions on it end, or, if it is a copy, the session of this
    copy.  The answer says whether the document was open. -/
def closeDocument (workspace : Workspace) (id : DocumentId) : Bool × Workspace :=
  match workspace.documents.close id with
  | (none, _) => (false, workspace)
  | (some document, documents) =>
      let closed : Workspace := { workspace with documents }
      match document.copyOf with
      | none => (true, closed.endSessionsOn id)
      | some source =>
          let forgotten : Workspace := { closed with copies := closed.copies.erase source }
          match forgotten.registry.activeFor? id with
          | none => (true, forgotten)
          | some tracer => (true, (forgotten.dispose ⟨id, tracer.id⟩).2)

/-- Commit a document, and merge staged edits into its tracers as far as the policy
    lets them.  A session whose tracer has nothing staged afterwards takes over the
    lines of the text as it is now.  The answer is the number of edits merged. -/
def commit (workspace : Workspace) (source : DocumentId) : Outcome Nat :=
  match workspace.documents.get source with
  | .error refusal => workspace.refuse refusal
  | .ok document =>
      let document := document.commit
      let merged :=
        workspace.registry.mergeStaged source document.committed workspace.policy
      let refresh (copy : DocumentId) (session : Session) : Session :=
        match merged.2.activeFor? copy with
        | none => session
        | some tracer =>
            if tracer.source = source ∧ tracer.staged = [] then
              { session with frame := document.lines }
            else session
      (.ok (merged.1.foldl (fun count entry => count + entry.2) 0),
        { workspace with
          documents := workspace.documents.put source document
          registry := merged.2
          sessions := workspace.sessions.map refresh })

/-- Make an edit that somebody else reports.  Copies take no edits this way.  The edit is
    staged with all tracers to the document, and the named offsets of its sessions move.
    An edit that does not fit the text is refused and staged nowhere. -/
def noteEdit (workspace : Workspace) (source : DocumentId) (edit : Edit) : Outcome Unit :=
  match workspace.documents.get source with
  | .error refusal => workspace.refuse refusal
  | .ok document =>
      if document.copyOf ≠ none then workspace.refuse (.needsSource source)
      else
        match document.apply edit with
        | .error failure => (.error failure, workspace)
        | .ok edited =>
            let carried := workspace.sessions.sweep (Session.carry source edit)
            let noted : Workspace :=
              { workspace with
                documents := workspace.documents.put source edited
                registry := workspace.registry.record source edit
                sessions := carried.2 }
            match carried.1 with
            | .error fault => (.error (.broken fault), noted)
            | .ok () =>
                if noted.policy.commitOnEdit then
                  match noted.commit source with
                  | (.error failure, committed) => (.error failure, committed)
                  | (.ok _, committed) => (.ok (), committed)
                else (.ok (), noted)

/-- Replace a span of a document, and make the edit that this is. -/
def edit (workspace : Workspace) (id : DocumentId) (span : Span) (text : String) :
    Outcome Edit :=
  match workspace.documents.get id with
  | .error refusal => workspace.refuse refusal
  | .ok document =>
      match document.cut span with
      | .error refusal => workspace.refuse refusal
      | .ok parts =>
          let edit : Edit := ⟨span.start, parts.inside, text⟩
          match workspace.noteEdit id edit with
          | (.error failure, noted) => (.error failure, noted)
          | (.ok (), noted) => (.ok edit, noted)

/-! ### Starting a completion -/

/-- Put a text into the copy that completions on a document use.  A copy that is still
    open is used again. -/
def placeCopy (workspace : Workspace) (source : DocumentId) (text : String) :
    Except Refusal (DocumentId × Workspace) :=
  let create : Except Refusal (DocumentId × Workspace) :=
    match workspace.documents.createCopy source text with
    | .error refusal => .error refusal
    | .ok (copy, documents) =>
        .ok (copy, { workspace with
          documents, copies := workspace.copies.insert source copy })
  match workspace.copies.find? source with
  | none => create
  | some copy =>
      match workspace.documents.find? copy with
      | none => create
      | some document =>
          .ok (copy, { workspace with
            documents := workspace.documents.put copy (document.setText text) })

/-- Start a completion on a document, with a span replaced in the copy.  An earlier
    completion on the same copy is superseded. -/
def start (workspace : Workspace) (source : DocumentId) (span : Span)
    (replacement : String) : Outcome Completion :=
  match workspace.documents.get source with
  | .error refusal => workspace.refuse refusal
  | .ok document =>
      if document.copyOf ≠ none then workspace.refuse (.needsSource source)
      else
        match document.cut span with
        | .error refusal => workspace.refuse refusal
        | .ok parts =>
            let text := parts.replace replacement
            match workspace.placeCopy source text with
            | .error refusal => workspace.refuse refusal
            | .ok (copy, placed) =>
                let given := placed.registry.nextGeneration
                let creation : Edit := ⟨span.start, parts.inside, replacement⟩
                let tracer :=
                  Tracer.start given.1 copy source creation document.committed
                let session := Session.start source span document.lines
                (.ok ⟨source, copy, tracer.handle, text⟩,
                  { placed with
                    registry := (given.2.register tracer).2
                    sessions := placed.sessions.insert copy session })

/-- Start a completion at a caret.  The dummy from the settings replaces the characters
    from there on that `continues` accepts. -/
def startAtRun (continues : Char → Bool) (workspace : Workspace) (source : DocumentId)
    (caret : Nat) : Outcome Completion :=
  match workspace.documents.get source with
  | .error refusal => workspace.refuse refusal
  | .ok document =>
      match document.cut (.caret caret) with
      | .error refusal => workspace.refuse refusal
      | .ok _ =>
          match Span.between caret (Text.runEnd continues document.text caret) with
          | .error fault => (.error (.broken fault), workspace)
          | .ok span => workspace.start source span workspace.config.dummyIdentifier

/-- Start a completion at a caret, in place of the rest of the identifier that the caret
    is in. -/
def startAt (workspace : Workspace) (source : DocumentId) (caret : Nat) :
    Outcome Completion :=
  workspace.startAtRun Text.continuesIdentifier source caret

/-! ### Questions -/

/-- The tracer that a handle means, if it is live and its source is open. -/
def tracer? (workspace : Workspace) (handle : Handle) : Option Tracer :=
  (workspace.registry.find? handle).filter fun tracer =>
    workspace.documents.contains tracer.source

def isUpToDate (workspace : Workspace) (handle : Handle) : Bool :=
  (workspace.tracer? handle).isSome

def activeTracer? (workspace : Workspace) (copy : DocumentId) : Option Tracer :=
  workspace.registry.activeFor? copy

/-- The named offsets of the session that a handle means. -/
def marks? (workspace : Workspace) (handle : Handle) : Option Marks :=
  match workspace.tracer? handle with
  | none => none
  | some _ => (workspace.sessions.find? handle.copy).map (·.marks)

/-- Where an offset of the copy is in the source.  A handle that is out of date has no
    answers. -/
def retrace (workspace : Workspace) (handle : Handle) (offset : Nat) :
    Checked (Option Offset) :=
  match workspace.tracer? handle with
  | none => .ok none
  | some tracer => tracer.retrace offset

def retraceSpan (workspace : Workspace) (handle : Handle) (span : Span) :
    Checked (Option Span) :=
  match workspace.tracer? handle with
  | none => .ok none
  | some tracer => tracer.retraceSpan span

/-- Where a position of the copy is in the source.  The answer is in the lines that
    the session keeps. -/
def retracePosition (workspace : Workspace) (handle : Handle) (position : Position) :
    Checked (Option Position) :=
  match workspace.tracer? handle, workspace.sessions.find? handle.copy,
      workspace.documents.find? handle.copy with
  | some tracer, some session, some copy =>
      match copy.lines.offset? position with
      | none => .ok none
      | some offset =>
          match tracer.retrace offset with
          | .error fault => .error fault
          | .ok none => .ok none
          | .ok (some reached) => .ok (session.frame.position? reached)
  | _, _, _ => .ok none

end Workspace

end Retrace
