import Retrace.Completion.Workspace

/-!
# Calls on a workspace

A run of a workspace is a list of calls.  The store of documents inside it can also be
called past the workspace, which keeps the documents right but may leave copies and
sessions behind, so these calls are a case of their own.

The policy belongs to the host, and nothing keeps it from answering the same question in
two ways.  In a list of moves, every call comes with the answers that the policy gives in
it.
-/

namespace Retrace.Workspace

inductive Call
  | openDocument (path text : String)
  | closeDocument (id : DocumentId)
  | noteEdit (source : DocumentId) (edit : Edit)
  | edit (id : DocumentId) (span : Span) (text : String)
  | commit (source : DocumentId)
  | start (source : DocumentId) (span : Span) (replacement : String)
  | startAt (source : DocumentId) (caret : Nat)
  | dispose (handle : Handle)
  | disposeAll
  /-- A call on the documents, past the workspace. -/
  | onDocuments (call : Store.Call)
  deriving DecidableEq, Repr

inductive Reply
  | opened (id : DocumentId)
  | closed (wasOpen : Bool)
  | noted
  | edited (edit : Edit)
  | merged (count : Nat)
  | started (completion : Completion)
  | disposed (wasLive : Bool)
  | disposedAll
  | onDocuments (reply : Store.Reply)
  | failed (failure : Failure)
  deriving DecidableEq, Repr

def Reply.ofAnswer {α : Type} (reply : α → Reply) : Except Failure α → Reply
  | .error failure => .failed failure
  | .ok answer => reply answer

def step (workspace : Workspace) : Call → Reply × Workspace
  | .openDocument path text =>
      let opened := workspace.openDocument path text
      (.opened opened.1, opened.2)
  | .closeDocument id =>
      let closed := workspace.closeDocument id
      (.closed closed.1, closed.2)
  | .noteEdit source edit =>
      let noted := workspace.noteEdit source edit
      (.ofAnswer (fun _ => .noted) noted.1, noted.2)
  | .edit id span text =>
      let edited := workspace.edit id span text
      (.ofAnswer .edited edited.1, edited.2)
  | .commit source =>
      let merged := workspace.commit source
      (.ofAnswer .merged merged.1, merged.2)
  | .start source span replacement =>
      let started := workspace.start source span replacement
      (.ofAnswer .started started.1, started.2)
  | .startAt source caret =>
      let started := workspace.startAt source caret
      (.ofAnswer .started started.1, started.2)
  | .dispose handle =>
      let disposed := workspace.dispose handle
      (.disposed disposed.1, disposed.2)
  | .disposeAll => (.disposedAll, workspace.disposeAll)
  | .onDocuments call =>
      let done := workspace.documents.step call
      (.onDocuments done.1, { workspace with documents := done.2 })

/-- Make calls one after the other, and keep the replies. -/
def run (workspace : Workspace) : List Call → List Reply × Workspace
  | [] => ([], workspace)
  | call :: rest =>
      let stepped := workspace.step call
      let ran := stepped.2.run rest
      (stepped.1 :: ran.1, ran.2)

def after (workspace : Workspace) (calls : List Call) : Workspace := (workspace.run calls).2

@[simp] theorem after_nil (workspace : Workspace) : workspace.after [] = workspace := rfl

theorem after_cons (workspace : Workspace) (call : Call) (rest : List Call) :
    workspace.after (call :: rest) = (workspace.step call).2.after rest := rfl

theorem after_append (workspace : Workspace) (front back : List Call) :
    workspace.after (front ++ back) = (workspace.after front).after back := by
  induction front generalizing workspace with
  | nil => rfl
  | cons call rest ih => exact ih (workspace.step call).2

/-! ### Policies that change their answers -/

/-- A call, and what the policy answers in it.  One call asks at most once whether edits
    are committed at once, and at most once for each tracer whether staged edits are
    merged. -/
structure Move where
  policy : CommitPolicy
  call : Call

def move (workspace : Workspace) (move : Move) : Reply × Workspace :=
  (workspace.withPolicy move.policy).step move.call

/-- Make moves one after the other, and keep the replies. -/
def runMoves (workspace : Workspace) : List Move → List Reply × Workspace
  | [] => ([], workspace)
  | move :: rest =>
      let moved := workspace.move move
      let ran := moved.2.runMoves rest
      (moved.1 :: ran.1, ran.2)

def afterMoves (workspace : Workspace) (moves : List Move) : Workspace :=
  (workspace.runMoves moves).2

theorem afterMoves_cons (workspace : Workspace) (move : Move) (rest : List Move) :
    workspace.afterMoves (move :: rest) = (workspace.move move).2.afterMoves rest := rfl

theorem afterMoves_append (workspace : Workspace) (front back : List Move) :
    workspace.afterMoves (front ++ back) = (workspace.afterMoves front).afterMoves back := by
  induction front generalizing workspace with
  | nil => rfl
  | cons move rest ih => exact ih (workspace.move move).2

end Retrace.Workspace
