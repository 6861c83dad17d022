import Retrace.Tracer.Registry

/-!
# What an operation does to the live tracers

The registry is read through `Registry.activeFor?` alone.  Each operation has one equation
that says what a copy finds afterwards, and one for the number that was given out last.

A tracer that stages and merges grows: its log and its staged edits, one after the other,
only get longer (`Tracer.Grows`).  A merge moves the border between the two and leaves the
sequence as it is.
-/

namespace Retrace

namespace Registry

variable {registry : Registry} {copy source : DocumentId} {tracer : Tracer} {handle : Handle}

theorem find?_eq_some_iff : registry.find? handle = some tracer ↔
    registry.activeFor? handle.copy = some tracer ∧ tracer.id = handle.generation := by
  simp [find?, Option.filter_eq_some_iff]

@[simp] theorem activeFor?_mapTo (f : Tracer → Tracer) :
    (registry.mapTo source f).activeFor? copy = (registry.activeFor? copy).map fun tracer =>
      if tracer.source = source then f tracer else tracer :=
  Table.find?_map registry.active _ copy

@[simp] theorem activeFor?_register : (registry.register tracer).2.activeFor? copy =
    if copy = tracer.copy then some tracer else registry.activeFor? copy :=
  Table.find?_insert registry.active tracer.copy copy tracer

@[simp] theorem activeFor?_disposeSource : (registry.disposeSource source).2.activeFor? copy =
    (registry.activeFor? copy).filter fun tracer => tracer.source ≠ source :=
  Table.find?_filter registry.active _ copy

theorem dispose_cases (registry : Registry) (handle : Handle) :
    (registry.find? handle = none ∧ registry.dispose handle = (none, registry)) ∨
      (∃ tracer, registry.find? handle = some tracer ∧
        registry.dispose handle =
          (some tracer, { registry with active := registry.active.erase handle.copy })) := by
  unfold dispose
  rcases hfind : registry.find? handle with _ | tracer
  · exact Or.inl ⟨rfl, rfl⟩
  · exact Or.inr ⟨tracer, rfl, rfl⟩

end Registry

/-! ### Tracers that grow -/

/-- The second tracer is the first one after further edits of the source: it is the same
tracer, and the inverses of the edits follow what it had. -/
structure Tracer.Grows (tracer later : Tracer) (edits : List Edit) : Prop where
  handle : later.handle = tracer.handle
  source : later.source = tracer.source
  creation : later.log.creation = tracer.log.creation
  inverses : later.log.later ++ later.staged =
    tracer.log.later ++ tracer.staged ++ edits.map Edit.inverse

namespace Tracer.Grows

variable {tracer middle later : Tracer} {edits more : List Edit}

theorem refl (tracer : Tracer) : tracer.Grows tracer [] := ⟨rfl, rfl, rfl, by simp⟩

theorem trans (h : tracer.Grows middle edits) (h' : middle.Grows later more) :
    tracer.Grows later (edits ++ more) where
  handle := h'.handle.trans h.handle
  source := h'.source.trans h.source
  creation := h'.creation.trans h.creation
  inverses := by rw [h'.inverses, h.inverses, List.map_append, List.append_assoc]

theorem id_eq (h : tracer.Grows later edits) : later.id = tracer.id :=
  congrArg Handle.generation h.handle

theorem copy_eq (h : tracer.Grows later edits) : later.copy = tracer.copy :=
  congrArg Handle.copy h.handle

/-- Everything that the tracer holds, the edit that made the copy in front. -/
theorem trail (h : tracer.Grows later edits) :
    later.log.entries ++ later.staged =
      tracer.log.entries ++ tracer.staged ++ edits.map Edit.inverse := by
  simp only [Log.entries, List.cons_append, h.inverses, h.creation]

theorem record (tracer : Tracer) (edit : Edit) : tracer.Grows (tracer.record edit) [edit] :=
  ⟨rfl, rfl, rfl, by simp [Tracer.record]⟩

theorem mergeStaged (tracer : Tracer) (committed : Stamp) (policy : CommitPolicy) :
    tracer.Grows (tracer.mergeStaged committed policy).2 [] := by
  unfold Tracer.mergeStaged
  split
  · exact ⟨rfl, rfl, rfl, by simp [Log.append]⟩
  · exact refl tracer

end Tracer.Grows

/-- With the default policy a commit of a newer state leaves nothing staged. -/
theorem Tracer.entries_mergeStaged {tracer : Tracer} {committed : Stamp}
    (h : tracer.staged = [] ∨ tracer.baseline < committed) :
    (tracer.mergeStaged committed .stampAdvanced).2.log.entries =
      tracer.log.entries ++ tracer.staged := by
  unfold mergeStaged
  split
  · exact Log.entries_append tracer.log tracer.staged
  · next hnot =>
      rcases h with hnone | hlt
      · rw [hnone, List.append_nil]
      · exact absurd (decide_eq_true hlt) hnot

end Retrace
