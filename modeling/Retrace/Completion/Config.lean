import Retrace.Json.Reader
import Retrace.Tracer.Policy

/-!
# Settings

Two settings: the dummy that is put in at the caret, and when staged edits are
merged.  They are written as a JSON object with the members `dummy-identifier` and
`commit`.  In reading, a missing member takes its default and an unknown one is
passed over, but a known one may occur only once.  The settings may also be given as
an array, in this order, that ends early.
-/

namespace Retrace

/-- When staged edits are merged. -/
inductive CommitMode
  /-- When a newer state is committed. -/
  | onStampAdvance
  | everyEdit
  deriving DecidableEq, Repr

namespace CommitMode

def policy : CommitMode → CommitPolicy
  | onStampAdvance => .stampAdvanced
  | everyEdit => .everyEdit

def name : CommitMode → String
  | onStampAdvance => "on-stamp-advance"
  | everyEdit => "every-edit"

def ofName? (name : String) : Option CommitMode :=
  if name = onStampAdvance.name then some onStampAdvance
  else if name = everyEdit.name then some everyEdit
  else none

/-- The mode that a JSON value stands for: its name, or an object whose only member
    has this name and the value null. -/
def ofValue? : Json.Value → Option CommitMode
  | .string (some name) => ofName? name
  | .object [(some name, .null)] => ofName? name
  | _ => none

@[simp] theorem ofName?_name (mode : CommitMode) : ofName? mode.name = some mode := by
  cases mode <;> decide

end CommitMode

structure Config where
  /-- The text that is put in where completion is asked for at a caret. -/
  dummyIdentifier : String
  commit : CommitMode
  deriving DecidableEq, Repr

namespace Config

/-- The dummy that is put in unless another is set. -/
def defaultDummy : String := "CompletionDummyIdent"

/-- The settings where nothing is set. -/
def default : Config := ⟨defaultDummy, .onStampAdvance⟩

instance : Inhabited Config := ⟨default⟩

def dummyMember : String := "dummy-identifier"

def commitMember : String := "commit"

def textOf? : Json.Value → Option String
  | .string content => content
  | _ => none

/-- Read the members of an object.  `dummy` and `commit` are what has been read so
    far. -/
def ofMembers? (dummy : Option String) (commit : Option CommitMode) :
    List (Option String × Json.Value) → Option Config
  | [] => some ⟨dummy.getD default.dummyIdentifier, commit.getD default.commit⟩
  | (none, _) :: _ => none
  | (some name, value) :: rest =>
      if name = dummyMember then
        match dummy, textOf? value with
        | none, some text => ofMembers? (some text) commit rest
        | _, _ => none
      else if name = commitMember then
        match commit, CommitMode.ofValue? value with
        | none, some mode => ofMembers? dummy (some mode) rest
        | _, _ => none
      else ofMembers? dummy commit rest

def ofValue? : Json.Value → Option Config
  | .object members => ofMembers? none none members
  | .array [] => some default
  | .array [dummy] => (textOf? dummy).map fun text => { default with dummyIdentifier := text }
  | .array [dummy, commit] =>
      match textOf? dummy, CommitMode.ofValue? commit with
      | some text, some mode => some ⟨text, mode⟩
      | _, _ => none
  | _ => none

def read? (text : String) : Option Config :=
  match Json.read? text with
  | none => none
  | some value => ofValue? value

def toValue (config : Config) : Json.Value :=
  .object [(some dummyMember, .string (some config.dummyIdentifier)),
    (some commitMember, .string (some config.commit.name))]

/-- Reading gives back what was written. -/
theorem ofValue?_toValue (config : Config) : ofValue? config.toValue = some config := by
  have h : commitMember ≠ dummyMember := by decide
  simp [toValue, ofValue?, ofMembers?, textOf?, CommitMode.ofValue?, h]

end Config

end Retrace
