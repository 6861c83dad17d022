/-!
# Names of documents and of their states

A document is known by a number that is given out once.  Its text changes, and two
counters tell its states apart: one advances with every change, and one follows it
whenever the document is committed.  Both counters are stamps.
-/

namespace Retrace

/-- The number of a document.  Copies and the documents they were made from share
    one sequence. -/
structure DocumentId where
  index : Nat
  deriving DecidableEq, Repr

namespace DocumentId

instance : Ord DocumentId where
  compare a b := compare a.index b.index

/-- The number as it appears in messages. -/
def display (id : DocumentId) : String := s!"doc#{id.index}"

/-- One line that shows the number with its kind. -/
def describe (id : DocumentId) : String := s!"DocumentId({id.index})"

end DocumentId

/-- A state of a document, counted in changes. -/
structure Stamp where
  value : Nat
  deriving DecidableEq, Repr

namespace Stamp

instance : Ord Stamp where
  compare a b := compare a.value b.value

instance : LT Stamp where
  lt a b := a.value < b.value

instance : LE Stamp where
  le a b := a.value ≤ b.value

instance (a b : Stamp) : Decidable (a < b) := inferInstanceAs (Decidable (a.value < b.value))

instance (a b : Stamp) : Decidable (a ≤ b) := inferInstanceAs (Decidable (a.value ≤ b.value))

def initial : Stamp := ⟨0⟩

def next (stamp : Stamp) : Stamp := ⟨stamp.value + 1⟩

def describe (stamp : Stamp) : String := s!"stamp#{stamp.value}"

theorem lt_next (stamp : Stamp) : stamp < stamp.next := Nat.lt_succ_self stamp.value

end Stamp

end Retrace
