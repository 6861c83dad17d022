import Retrace.Proofs.Tracer.Registry

/-!
# How a registry gets older

A registry gives out each generation once, and a tracer never gets another source.  So whoever
remembers a handle and its source can tell from the handle alone which source a live tracer under it
has, whatever was done to the registry in between (`Registry.Ages`).
-/

namespace Retrace.Registry

variable {registry middle later : Registry} {source copy : DocumentId} {tracer : Tracer}
  {handle : Handle}

/-- A registry that another one has become: a live tracer has a new generation, or there was one on
the copy before with the same generation and the same source. -/
structure Ages (registry later : Registry) : Prop where
  lastGeneration_le : registry.lastGeneration ≤ later.lastGeneration
  tracer : ∀ {copy found}, later.activeFor? copy = some found →
    (∃ old, registry.activeFor? copy = some old ∧ old.id = found.id ∧
        old.source = found.source) ∨
      registry.lastGeneration < found.id.number

namespace Ages

theorem refl (registry : Registry) : registry.Ages registry where
  lastGeneration_le := Nat.le_refl _
  tracer hactive := Or.inl ⟨_, hactive, rfl, rfl⟩

theorem trans (h : registry.Ages middle) (h' : middle.Ages later) : registry.Ages later where
  lastGeneration_le := Nat.le_trans h.lastGeneration_le h'.lastGeneration_le
  tracer := by
    intro copy found hactive
    rcases h'.tracer hactive with ⟨between, hbetween, hid, hsource⟩ | hnew
    · rcases h.tracer hbetween with ⟨old, hold, hid', hsource'⟩ | hnew
      · exact Or.inl ⟨old, hold, hid'.trans hid, hsource'.trans hsource⟩
      · exact Or.inr (hid ▸ hnew)
    · exact Or.inr (Nat.lt_of_le_of_lt h.lastGeneration_le hnew)

/-- Tracers may go, and those that stay keep their generations and sources. -/
theorem of_kept (hlast : later.lastGeneration = registry.lastGeneration)
    (hkept : ∀ copy found, later.activeFor? copy = some found →
      ∃ old, registry.activeFor? copy = some old ∧ old.id = found.id ∧
        old.source = found.source) : registry.Ages later where
  lastGeneration_le := Nat.le_of_eq hlast.symm
  tracer hactive := Or.inl (hkept _ _ hactive)

theorem mapTo (registry : Registry) (source : DocumentId) {f : Tracer → Tracer}
    (hid : ∀ tracer, (f tracer).id = tracer.id)
    (hsource : ∀ tracer, (f tracer).source = tracer.source) :
    registry.Ages (registry.mapTo source f) := by
  refine of_kept rfl ?_
  intro copy found hactive
  rw [activeFor?_mapTo] at hactive
  obtain ⟨old, hold, rfl⟩ := Option.map_eq_some_iff.1 hactive
  refine ⟨old, hold, ?_⟩
  split
  · exact ⟨(hid old).symm, (hsource old).symm⟩
  · exact ⟨rfl, rfl⟩

/-- A tracer under the next generation is new. -/
theorem register (registry : Registry) (htracer : tracer.id = registry.nextGeneration.1) :
    registry.Ages (registry.nextGeneration.2.register tracer).2 where
  lastGeneration_le := Nat.le_succ _
  tracer := by
    intro copy found hactive
    rw [activeFor?_register] at hactive
    split at hactive
    · cases hactive
      rw [htracer]
      exact Or.inr (Nat.lt_succ_self _)
    · exact Or.inl ⟨found, hactive, rfl, rfl⟩

/-- A tracer under a generation that was given out was there before. -/
theorem find?_old (h : registry.Ages later) (hfind : later.find? handle = some tracer)
    (hissued : handle.generation.number ≤ registry.lastGeneration) :
    ∃ old, registry.find? handle = some old ∧ old.source = tracer.source := by
  obtain ⟨hactive, hid⟩ := find?_eq_some_iff.1 hfind
  rcases h.tracer hactive with ⟨old, hold, hsame, hsource⟩ | hnew
  · exact ⟨old, find?_eq_some_iff.2 ⟨hold, hsame.trans hid⟩, hsource⟩
  · rw [hid] at hnew
    exact absurd hissued (Nat.not_le_of_lt hnew)

end Ages

end Retrace.Registry
