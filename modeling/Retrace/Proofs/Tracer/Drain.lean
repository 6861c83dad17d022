import Retrace.Completion.Config
import Retrace.Proofs.Table.Map
import Retrace.Proofs.Tracer.Registry

/-!
# Tracers that are emptied by a commit

A policy is asked about two stamps, the baseline of the tracer and the stamp that is committed.
Both policies that the settings offer merge if the second is above the first
(`CommitMode.mergesNewer_policy`).  So a commit empties a tracer if nothing is staged in it, or if
its baseline is below the stamp of the last change (`Tracer.DatedBy`), and every other change of the
tracer and of the stamp keeps this.

Whatever the policy answers, a second merge under the same stamp finds nothing to do
(`Tracer.mergeStaged_mergeStaged`).
-/

namespace Retrace

theorem Stamp.eq_of_le_of_not_lt {stamp later : Stamp} (hle : stamp ≤ later)
    (hlt : ¬ stamp < later) : stamp = later := by
  have heq : stamp.value = later.value := Nat.le_antisymm hle (Nat.le_of_not_lt hlt)
  cases stamp
  cases later
  exact congrArg Stamp.mk heq

namespace CommitPolicy

/-- A commit of a stamp above the baseline is let through. -/
def MergesNewer (policy : CommitPolicy) : Prop :=
  ∀ baseline committed : Stamp, baseline < committed →
    policy.shouldMerge baseline committed = true

theorem mergesNewer_stampAdvanced : stampAdvanced.MergesNewer :=
  fun _ _ hlt => decide_eq_true hlt

theorem mergesNewer_everyEdit : everyEdit.MergesNewer := fun _ _ _ => rfl

end CommitPolicy

theorem CommitMode.mergesNewer_policy (mode : CommitMode) : mode.policy.MergesNewer := by
  cases mode with
  | onStampAdvance => exact CommitPolicy.mergesNewer_stampAdvanced
  | everyEdit => exact CommitPolicy.mergesNewer_everyEdit

namespace Tracer

variable {tracer : Tracer} {stamp later : Stamp} {policy : CommitPolicy}

/-- The tracer with everything that was staged at the end of its log, in order, and with a stamp for
its baseline. -/
def drained (tracer : Tracer) (stamp : Stamp) : Tracer :=
  { tracer with log := tracer.log.append tracer.staged, staged := [], baseline := stamp }

theorem drained_of_staged_eq_nil (hstaged : tracer.staged = [])
    (hbaseline : tracer.baseline = stamp) : tracer.drained stamp = tracer := by
  obtain ⟨id, copy, source, log, staged, baseline⟩ := tracer
  cases hstaged
  cases hbaseline
  simp [drained, Log.append]

@[simp] theorem drained_drained : (tracer.drained stamp).drained later = tracer.drained later := by
  simp [drained, Log.append]

theorem mergeStaged_cases (tracer : Tracer) (stamp : Stamp) (policy : CommitPolicy) :
    (policy.shouldMerge tracer.baseline stamp = true ∧
        tracer.mergeStaged stamp policy = (tracer.staged.length, tracer.drained stamp)) ∨
      (policy.shouldMerge tracer.baseline stamp = false ∧
        tracer.mergeStaged stamp policy = (0, tracer)) := by
  unfold mergeStaged
  cases hmerge : policy.shouldMerge tracer.baseline stamp with
  | true => exact Or.inl ⟨rfl, rfl⟩
  | false => exact Or.inr ⟨rfl, rfl⟩

@[simp] theorem source_mergeStaged :
    (tracer.mergeStaged stamp policy).2.source = tracer.source :=
  (Grows.mergeStaged tracer stamp policy).source

/-- After a merge the same commit has nothing left to merge. -/
theorem mergeStaged_mergeStaged (tracer : Tracer) (stamp : Stamp) (policy : CommitPolicy) :
    (tracer.mergeStaged stamp policy).2.mergeStaged stamp policy =
      (0, (tracer.mergeStaged stamp policy).2) := by
  rcases tracer.mergeStaged_cases stamp policy with ⟨-, heq⟩ | ⟨-, heq⟩
  · rw [heq]
    -- merging nothing and not merging are the same
    rcases (tracer.drained stamp).mergeStaged_cases stamp policy with ⟨-, hagain⟩ | ⟨-, hagain⟩
    · rw [hagain, drained_drained]
      rfl
    · exact hagain
  · rw [heq]
    exact heq

/-! ### Tracers and the stamp of the last change -/

/-- The baseline is not above the stamp, and it is below if anything is staged. -/
structure DatedBy (tracer : Tracer) (stamp : Stamp) : Prop where
  baseline_le : tracer.baseline ≤ stamp
  baseline_lt : tracer.staged ≠ [] → tracer.baseline < stamp

namespace DatedBy

theorem mono (h : tracer.DatedBy stamp) (hle : stamp ≤ later) : tracer.DatedBy later where
  baseline_le := Nat.le_trans h.baseline_le hle
  baseline_lt hstaged := Nat.lt_of_lt_of_le (h.baseline_lt hstaged) hle

theorem start {id : Generation} {copy source : DocumentId} {creation : Edit} {baseline : Stamp}
    (hle : baseline ≤ stamp) : (Tracer.start id copy source creation baseline).DatedBy stamp where
  baseline_le := hle
  baseline_lt hstaged := absurd rfl hstaged

/-- The edit that is staged has moved the stamp on. -/
theorem record (h : tracer.DatedBy stamp) (edit : Edit) :
    (tracer.record edit).DatedBy stamp.next where
  baseline_le := Nat.le_succ_of_le h.baseline_le
  baseline_lt _ := Nat.lt_succ_of_le h.baseline_le

theorem mergeStaged (h : tracer.DatedBy stamp) (policy : CommitPolicy) :
    (tracer.mergeStaged stamp policy).2.DatedBy stamp := by
  rcases tracer.mergeStaged_cases stamp policy with ⟨-, heq⟩ | ⟨-, heq⟩
  · rw [heq]
    exact ⟨Nat.le_refl _, fun hstaged => absurd rfl hstaged⟩
  · rw [heq]
    exact h

/-- A commit of the stamp of the last change empties the tracer. -/
theorem mergeStaged_eq (h : tracer.DatedBy stamp) (hpolicy : policy.MergesNewer) :
    tracer.mergeStaged stamp policy = (tracer.staged.length, tracer.drained stamp) := by
  rcases tracer.mergeStaged_cases stamp policy with ⟨-, heq⟩ | ⟨hheld, heq⟩
  · exact heq
  · -- the policy holds back only what is not newer than the baseline
    have hnot : ¬ tracer.baseline < stamp := by
      intro hlt
      rw [hpolicy _ _ hlt] at hheld
      cases hheld
    have hstaged : tracer.staged = [] :=
      Decidable.byContradiction fun hne => hnot (h.baseline_lt hne)
    have hbaseline : tracer.baseline = stamp := Stamp.eq_of_le_of_not_lt h.baseline_le hnot
    rw [heq, hstaged, drained_of_staged_eq_nil hstaged hbaseline]
    rfl

end DatedBy

end Tracer

/-! ### Merging in a registry -/

namespace Registry

variable {registry : Registry} {source : DocumentId} {tracer : Tracer} {stamp : Stamp}
  {policy : CommitPolicy}

theorem mem_tracersTo_iff : tracer ∈ registry.tracersTo source ↔
    (∃ copy, registry.activeFor? copy = some tracer) ∧ tracer.source = source := by
  unfold tracersTo activeFor? Table.values
  simp only [List.mem_mergeSort, List.mem_filter, List.mem_map, decide_eq_true_eq]
  apply and_congr_left'
  constructor
  · rintro ⟨entry, hentry, rfl⟩
    exact ⟨entry.1, Table.find?_eq_some_iff.2 hentry⟩
  · rintro ⟨copy, hactive⟩
    exact ⟨(copy, tracer), Table.find?_eq_some_iff.1 hactive, rfl⟩

/-- Tracers that were changed once and stay where they are can be changed again at the same time. -/
theorem mapTo_mapTo (registry : Registry) {f g : Tracer → Tracer}
    (hsource : ∀ tracer, (f tracer).source = tracer.source) :
    (registry.mapTo source f).mapTo source g =
      registry.mapTo source fun tracer => g (f tracer) := by
  unfold mapTo
  rw [Table.map_map]
  congr 2
  funext copy tracer
  by_cases hto : tracer.source = source
  · rw [if_pos hto, if_pos ((hsource tracer).trans hto), if_pos hto]
  · rw [if_neg hto, if_neg hto, if_neg hto]

/-- A second merge under the same stamp finds nothing to do. -/
theorem mergeStaged_mergeStaged (registry : Registry) (source : DocumentId) (stamp : Stamp)
    (policy : CommitPolicy) :
    ((registry.mergeStaged source stamp policy).2.mergeStaged source stamp policy).2 =
      (registry.mergeStaged source stamp policy).2 := by
  refine (registry.mapTo_mapTo fun _ => Tracer.source_mergeStaged).trans ?_
  simp only [Tracer.mergeStaged_mergeStaged]
  rfl

theorem merged_of_mem_tracersTo
    (h : tracer ∈ (registry.mergeStaged source stamp policy).2.tracersTo source) :
    (tracer.mergeStaged stamp policy).1 = 0 := by
  obtain ⟨⟨copy, hactive⟩, hsource⟩ := mem_tracersTo_iff.1 h
  have hmap : (registry.mergeStaged source stamp policy).2.activeFor? copy = _ :=
    activeFor?_mapTo _
  rw [hactive] at hmap
  obtain ⟨old, hold, rfl⟩ := Option.map_eq_some_iff.1 hmap.symm
  split at hsource
  · next hto => rw [if_pos hto, Tracer.mergeStaged_mergeStaged]
  · next hto => exact absurd hsource hto

end Registry

end Retrace
