import Retrace.Table.Basic
import Retrace.Tracer.Basic

/-!
# The registry of live tracers

A copy has at most one live tracer.  A new one takes the place of the one before,
whose staged edits are lost with it.  Users hold handles, and a handle says which
tracer is meant, not only which copy, so a handle of a tracer that was replaced or
disposed of finds nothing.

`Registry.Call` lists the calls that change a registry, and `Registry.step` makes
one.
-/

namespace Retrace

/-- Which tracer is meant. -/
structure Handle where
  copy : DocumentId
  generation : Generation
  deriving DecidableEq, Repr

def Handle.describe (handle : Handle) : String :=
  let copy := handle.copy.describe
  let generation := handle.generation.describe
  s!"TranslatorHandle \x7b copy: {copy}, generation: {generation} \x7d"

def Tracer.handle (tracer : Tracer) : Handle := ⟨tracer.copy, tracer.id⟩

structure Registry where
  active : Table DocumentId Tracer
  /-- The number that was given out last. -/
  lastGeneration : Nat
  deriving DecidableEq, Repr

namespace Registry

def empty : Registry := ⟨∅, 0⟩

instance : EmptyCollection Registry := ⟨empty⟩

def activeFor? (registry : Registry) (copy : DocumentId) : Option Tracer :=
  registry.active.find? copy

/-- The tracer that a handle means, if it is still live. -/
def find? (registry : Registry) (handle : Handle) : Option Tracer :=
  (registry.activeFor? handle.copy).filter fun tracer => tracer.id = handle.generation

def isActive (registry : Registry) (handle : Handle) : Bool := (registry.find? handle).isSome

/-- The live tracers to a source, in ascending order of their copies. -/
def tracersTo (registry : Registry) (source : DocumentId) : List Tracer :=
  (registry.active.values.filter fun tracer => tracer.source = source).mergeSort
    fun a b => a.copy.index ≤ b.copy.index

def size (registry : Registry) : Nat := registry.active.size

def isEmpty (registry : Registry) : Bool := registry.active.isEmpty

def nextGeneration (registry : Registry) : Generation × Registry :=
  (⟨registry.lastGeneration + 1⟩, { registry with lastGeneration := registry.lastGeneration + 1 })

/-- Make a tracer the live one of its copy.  Whichever was live before comes back. -/
def register (registry : Registry) (tracer : Tracer) : Option Tracer × Registry :=
  (registry.activeFor? tracer.copy,
    { registry with active := registry.active.insert tracer.copy tracer })

def mapTo (registry : Registry) (source : DocumentId) (f : Tracer → Tracer) :
    Registry :=
  { registry with
    active := registry.active.map fun _ tracer =>
      if tracer.source = source then f tracer else tracer }

def record (registry : Registry) (source : DocumentId) (edit : Edit) : Registry :=
  registry.mapTo source fun tracer => tracer.record edit

/-- Report a commit of a source to all its tracers.  The list says for each copy how many
    edits were merged. -/
def mergeStaged (registry : Registry) (source : DocumentId) (committed : Stamp)
    (policy : CommitPolicy) : List (DocumentId × Nat) × Registry :=
  ((registry.tracersTo source).map fun tracer =>
      (tracer.copy, (tracer.mergeStaged committed policy).1),
    registry.mapTo source fun tracer => (tracer.mergeStaged committed policy).2)

/-- Take out the tracer that a handle means.  A handle that means no live tracer changes
    nothing. -/
def dispose (registry : Registry) (handle : Handle) : Option Tracer × Registry :=
  match registry.find? handle with
  | none => (none, registry)
  | some tracer =>
      (some tracer, { registry with active := registry.active.erase handle.copy })

/-- Take out all tracers to a source, and say how many there were. -/
def disposeSource (registry : Registry) (source : DocumentId) : Nat × Registry :=
  let kept := registry.active.filter fun _ tracer => tracer.source ≠ source
  (registry.active.size - kept.size, { registry with active := kept })

/-- Take out all tracers.  The numbers go on. -/
def clear (registry : Registry) : Registry := { registry with active := ∅ }

/-! ### Calls -/

inductive Call
  | nextGeneration
  | register (tracer : Tracer)
  | record (source : DocumentId) (edit : Edit)
  | mergeStaged (source : DocumentId) (committed : Stamp) (policy : CommitPolicy)
  | dispose (handle : Handle)
  | disposeSource (source : DocumentId)
  | clear

inductive Reply
  | generation (generation : Generation)
  /-- The handle of the new tracer, and the tracer it replaced. -/
  | registered (handle : Handle) (superseded : Option Tracer)
  /-- The copies whose tracers staged the edit. -/
  | recorded (copies : List DocumentId)
  | merged (counts : List (DocumentId × Nat))
  | disposed (tracer : Option Tracer)
  | removed (count : Nat)
  | cleared
  deriving DecidableEq, Repr

def step (registry : Registry) : Call → Reply × Registry
  | .nextGeneration =>
      let given := registry.nextGeneration
      (.generation given.1, given.2)
  | .register tracer =>
      let registered := registry.register tracer
      (.registered tracer.handle registered.1, registered.2)
  | .record source edit =>
      (.recorded ((registry.tracersTo source).map (·.copy)), registry.record source edit)
  | .mergeStaged source committed policy =>
      let merged := registry.mergeStaged source committed policy
      (.merged merged.1, merged.2)
  | .dispose handle =>
      let disposed := registry.dispose handle
      (.disposed disposed.1, disposed.2)
  | .disposeSource source =>
      let removed := registry.disposeSource source
      (.removed removed.1, removed.2)
  | .clear => (.cleared, registry.clear)

def run (registry : Registry) (calls : List Call) : Registry :=
  calls.foldl (fun registry call => (registry.step call).2) registry

end Registry

end Retrace
