import Retrace.Document.Basic
import Retrace.Table.Basic

/-!
# The store of open documents

The store gives out document numbers, keeps the open documents in the order in
which they were opened, and knows which of them was opened under which path.  A
number is never given out twice, so a number that was closed stays closed.

`Store.Call` lists the calls that change a store, and `Store.step` makes one.  A
call that fails changes nothing.
-/

namespace Retrace

/-- The open documents. -/
structure Store where
  /-- The documents that were opened under a path. -/
  paths : Table String DocumentId
  /-- All open documents, in opening order. -/
  documents : Table DocumentId Document
  /-- The number of the next document. -/
  nextIndex : Nat
  deriving DecidableEq, Repr

namespace Store

/-- The store without documents. -/
def empty : Store := ⟨∅, ∅, 0⟩

instance : EmptyCollection Store := ⟨empty⟩

/-- The document with a number, if it is open. -/
def find? (store : Store) (id : DocumentId) : Option Document := store.documents.find? id

/-- The document with a number, or a refusal that names the number. -/
def get (store : Store) (id : DocumentId) : Except Refusal Document :=
  match store.find? id with
  | none => .error (.unknownDocument id)
  | some document => .ok document

/-- Whether a document is open. -/
def contains (store : Store) (id : DocumentId) : Bool := (store.find? id).isSome

/-- The document that was opened under a path. -/
def idForPath? (store : Store) (path : String) : Option DocumentId := store.paths.find? path

/-- The completion copies of a document, in opening order. -/
def copiesOf (store : Store) (source : DocumentId) : List DocumentId :=
  (store.documents.values.filter fun document => document.copyOf = some source).map (·.id)

/-- The number of open documents. -/
def size (store : Store) : Nat := store.documents.size

def isEmpty (store : Store) : Bool := store.documents.isEmpty

/-- Put a changed document in its place. -/
def put (store : Store) (id : DocumentId) (document : Document) : Store :=
  { store with documents := store.documents.insert id document }

/-- Add a document under the next number. -/
def add (store : Store) (path : Option String) (text : String)
    (copyOf : Option DocumentId) : DocumentId × Store :=
  let id : DocumentId := ⟨store.nextIndex⟩
  (id, { store.put id (.fresh id path text copyOf) with nextIndex := store.nextIndex + 1 })

/-- Open a document under a path that is not in use. -/
def openFresh (store : Store) (path text : String) : DocumentId × Store :=
  let added := store.add (some path) text none
  (added.1, { added.2 with paths := added.2.paths.insert path added.1 })

/-- Open a document under a path.  If one is open there, it gets the new text and
    keeps its number. -/
def openPath (store : Store) (path text : String) : DocumentId × Store :=
  match store.idForPath? path with
  | none => store.openFresh path text
  | some id =>
      match store.find? id with
      | none => store.openFresh path text
      | some document => (id, store.put id (document.setText text))

/-- Open a copy of a document with a text of its own. -/
def createCopy (store : Store) (source : DocumentId) (text : String) :
    Except Refusal (DocumentId × Store) :=
  if store.contains source then .ok (store.add none text (some source))
  else .error (.unknownDocument source)

/-- Close a document and hand it out.  Its path is free again. -/
def close (store : Store) (id : DocumentId) : Option Document × Store :=
  match store.find? id with
  | none => (none, store)
  | some document =>
      let closed := { store with documents := store.documents.erase id }
      match document.path with
      | none => (some document, closed)
      | some path => (some document, { closed with paths := closed.paths.erase path })

/-! ### Calls -/

inductive Call
  | openPath (path text : String)
  | createCopy (source : DocumentId) (text : String)
  | replace (id : DocumentId) (span : Span) (text : String)
  | apply (id : DocumentId) (edit : Edit)
  | setText (id : DocumentId) (text : String)
  | commit (id : DocumentId)
  | close (id : DocumentId)
  deriving DecidableEq, Repr

inductive Reply
  | document (id : DocumentId)
  | edited (edit : Edit)
  | text (text : String)
  | stamp (stamp : Stamp)
  /-- The document as it was when it was closed, if it was open. -/
  | closed (document : Option Document)
  | failed (failure : Failure)
  deriving DecidableEq, Repr

def step (store : Store) : Call → Reply × Store
  | .openPath path text =>
      let opened := store.openPath path text
      (.document opened.1, opened.2)
  | .createCopy source text =>
      match store.createCopy source text with
      | .error refusal => (.failed (.refused refusal), store)
      | .ok (id, store) => (.document id, store)
  | .replace id span text =>
      match store.get id with
      | .error refusal => (.failed (.refused refusal), store)
      | .ok document =>
          match document.replace span text with
          | .error refusal => (.failed (.refused refusal), store)
          | .ok (edit, document) => (.edited edit, store.put id document)
  | .apply id edit =>
      match store.get id with
      | .error refusal => (.failed (.refused refusal), store)
      | .ok document =>
          match document.apply edit with
          | .error failure => (.failed failure, store)
          | .ok document => (.text document.text, store.put id document)
  | .setText id text =>
      match store.get id with
      | .error refusal => (.failed (.refused refusal), store)
      | .ok document =>
          let document := document.setText text
          (.stamp document.modified, store.put id document)
  | .commit id =>
      match store.get id with
      | .error refusal => (.failed (.refused refusal), store)
      | .ok document =>
          let document := document.commit
          (.stamp document.committed, store.put id document)
  | .close id =>
      let closed := store.close id
      (.closed closed.1, closed.2)

def run (store : Store) (calls : List Call) : Store :=
  calls.foldl (fun store call => (store.step call).2) store

end Store

end Retrace
