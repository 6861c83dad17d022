import Retrace.Document.Name

/-!
# Commit policies

Edits of a document reach its tracers at once, but they count only after a commit.
The policy decides which commits do that: it is told the stamp up to which a tracer
has everything and the stamp that was committed.  A policy can also ask for a commit
after every edit.
-/

namespace Retrace

/-- When waiting edits start to count. -/
structure CommitPolicy where
  /-- Whether a commit merges the edits that wait since the baseline. -/
  shouldMerge : (baseline committed : Stamp) → Bool
  commitOnEdit : Bool

namespace CommitPolicy

/-- Merge when the committed stamp has passed the baseline.  A commit without new
    edits does nothing. -/
def stampAdvanced : CommitPolicy := ⟨fun baseline committed => baseline < committed, false⟩

/-- Merge at every commit, and commit after every edit. -/
def everyEdit : CommitPolicy := ⟨fun _ _ => true, true⟩

def always : CommitPolicy := ⟨fun _ _ => true, false⟩

def never : CommitPolicy := ⟨fun _ _ => false, false⟩

/-- Merge at no commit, although every edit is committed at once. -/
def neverOnEdit : CommitPolicy := ⟨fun _ _ => false, true⟩

end CommitPolicy

end Retrace
