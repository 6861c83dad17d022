import Retrace.Document.Name
import Retrace.Text.Offset
import Retrace.Text.Quoted

/-!
# Why a call on a document is refused

A refusal names the document and what was wrong with the call, and leaves
everything as it was.  An offset without a counterpart is no refusal: it is an
answer.  A call can also break off in the middle because an offset leaves its
range, and `Failure` keeps the two apart.
-/

namespace Retrace

/-- The reason why a call on a document is refused. -/
inductive Refusal
  /-- No open document has this number. -/
  | unknownDocument (document : DocumentId)
  /-- The span stops behind the end of the text, which has this length. -/
  | outOfBounds (document : DocumentId) (span : Span) (length : Nat)
  /-- The offset is inside a character. -/
  | notCharBoundary (document : DocumentId) (offset : Nat)
  /-- A reported edit claims to replace a text that is not there. -/
  | inconsistentEdit (document : DocumentId) (offset : Nat) (expected found : String)
  /-- The call needs a document that is not itself a copy. -/
  | needsSource (document : DocumentId)
  deriving DecidableEq, Repr

/-- The wording of a refusal. -/
def Refusal.message : Refusal → String
  | unknownDocument document =>
      let name := document.display
      s!"unknown document {name}"
  | outOfBounds document span length =>
      let name := document.display
      s!"range {span.start}..{span.stop} is out of bounds for {name} (length {length})"
  | notCharBoundary document offset =>
      let name := document.display
      s!"offset {offset} in {name} is not on a char boundary"
  | inconsistentEdit document offset expected found =>
      let name := document.display
      let wanted := Text.quote expected
      let actual := Text.quote found
      s!"inconsistent edit at {offset} in {name}: expected {wanted}, found {actual}"
  | needsSource document =>
      let name := document.display
      s!"{name} is a completion copy, not an original document"

/-- Why a call has no result. -/
inductive Failure
  | refused (refusal : Refusal)
  | broken (fault : Fault)
  deriving DecidableEq, Repr

end Retrace
