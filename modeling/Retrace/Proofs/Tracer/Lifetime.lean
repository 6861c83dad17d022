import Mathlib.Data.List.Nodup
import Retrace.Proofs.Tracer.Drain

/-!
# How long a handle finds its tracer

A tracer that is live after a call was live before it, under the same handle, or it is the one that
the call has registered (`activeFor?_step`).  What holds of whole runs follows from this.

The first consequence needs no care in the use of generations: a live tracer is filed under its own
copy (`Filed`).  The second one does.  A handle is found out of date by comparing numbers, and a
tracer that is registered under a generation of an earlier one brings the old handle back.  So a run
is looked at together with the generations that were given out and that no tracer has yet, and each
tracer takes one of them (`FreshFrom`).  That none of them is given out twice is not asked for.  It
holds because the counter only goes up (`Accounted`), and it is why a generation that a tracer has
taken is never again among those that are left (`Spent`).
-/

namespace Retrace.Registry

variable {registry : Registry} {source copy : DocumentId} {tracer : Tracer} {handle : Handle}
  {call : Call} {calls front middle back : List Call} {unused : List Generation}
  {generation : Generation}

/-! ### What one call does to live tracers -/

/-- A change of tracers that keeps their handles leaves each of them where it is. -/
theorem exists_of_activeFor?_mapTo {f : Tracer → Tracer}
    (hhandle : ∀ tracer, (f tracer).handle = tracer.handle)
    (h : (registry.mapTo source f).activeFor? copy = some tracer) :
    ∃ old, registry.activeFor? copy = some old ∧ tracer.handle = old.handle := by
  rw [activeFor?_mapTo] at h
  obtain ⟨old, hold, rfl⟩ := Option.map_eq_some_iff.1 h
  refine ⟨old, hold, ?_⟩
  by_cases hto : old.source = source
  · rw [if_pos hto]
    exact hhandle old
  · rw [if_neg hto]

/-- A tracer that is live after a call was live before it under the same handle, or the call has
registered it. -/
theorem activeFor?_step (h : (registry.step call).2.activeFor? copy = some tracer) :
    (call = .register tracer ∧ tracer.copy = copy) ∨
      ∃ old, registry.activeFor? copy = some old ∧ tracer.handle = old.handle := by
  cases call with
  | nextGeneration => exact Or.inr ⟨tracer, h, rfl⟩
  | register added =>
      simp only [step, activeFor?_register] at h
      by_cases hcopy : copy = added.copy
      · rw [if_pos hcopy, Option.some.injEq] at h
        subst h
        exact Or.inl ⟨rfl, hcopy.symm⟩
      · rw [if_neg hcopy] at h
        exact Or.inr ⟨tracer, h, rfl⟩
  | record source edit =>
      exact Or.inr (exists_of_activeFor?_mapTo (fun old => (Tracer.Grows.record old edit).handle) h)
  | mergeStaged source committed policy =>
      exact Or.inr (exists_of_activeFor?_mapTo
        (fun old => (Tracer.Grows.mergeStaged old committed policy).handle) h)
  | dispose handle =>
      simp only [step] at h
      rcases registry.dispose_cases handle with ⟨-, heq⟩ | ⟨disposed, -, heq⟩
      · rw [heq] at h
        exact Or.inr ⟨tracer, h, rfl⟩
      · rw [heq] at h
        simp only [activeFor?, Table.find?_erase] at h
        split at h
        · cases h
        · exact Or.inr ⟨tracer, h, rfl⟩
  | disposeSource source =>
      simp only [step, activeFor?_disposeSource, Option.filter_eq_some_iff] at h
      exact Or.inr ⟨tracer, h.1, rfl⟩
  | clear => cases h

theorem lastGeneration_step (registry : Registry) (call : Call) :
    registry.lastGeneration ≤ (registry.step call).2.lastGeneration := by
  cases call with
  | nextGeneration => exact Nat.le_succ registry.lastGeneration
  | dispose handle =>
      simp only [step]
      rcases registry.dispose_cases handle with ⟨-, heq⟩ | ⟨disposed, -, heq⟩
      · simp only [heq, Nat.le_refl]
      · simp only [heq, Nat.le_refl]
  | _ => exact Nat.le_refl registry.lastGeneration

theorem run_cons (registry : Registry) (call : Call) (calls : List Call) :
    registry.run (call :: calls) = (registry.step call).2.run calls := rfl

/-! ### Copies -/

/-- Every live tracer is found under its own copy. -/
structure Filed (registry : Registry) : Prop where
  copy_eq : ∀ {copy tracer}, registry.activeFor? copy = some tracer → tracer.copy = copy

theorem filed_empty : (∅ : Registry).Filed where
  copy_eq hactive := by cases hactive

theorem Filed.step (h : registry.Filed) (call : Call) : (registry.step call).2.Filed where
  copy_eq := by
    intro copy tracer hactive
    rcases activeFor?_step hactive with ⟨-, hcopy⟩ | ⟨old, hold, hhandle⟩
    · exact hcopy
    · exact (congrArg Handle.copy hhandle).trans (h.copy_eq hold)

theorem Filed.run (h : registry.Filed) (calls : List Call) : (registry.run calls).Filed := by
  induction calls generalizing registry with
  | nil => exact h
  | cons call rest ih => exact ih (h.step call)

/-- So no tracer is listed twice. -/
theorem Filed.nodup_values (h : registry.Filed) : registry.active.values.Nodup := by
  have hcopies : registry.active.values.map (·.copy) = registry.active.keys := by
    simp only [Table.values, Table.keys, List.map_map]
    apply List.map_congr_left
    intro entry hentry
    exact h.copy_eq (Table.find?_eq_some_iff.2 hentry)
  exact List.Nodup.of_map (·.copy) (hcopies ▸ registry.active.keys_nodup)

/-! ### The tracers to a source -/

theorem Filed.nodup_tracersTo (h : registry.Filed) (source : DocumentId) :
    (registry.tracersTo source).Nodup :=
  (List.mergeSort_perm _ _).nodup_iff.2 (h.nodup_values.filter _)

/-- A live tracer is among those to a source exactly if it leads there. -/
theorem mem_tracersTo_iff_of_active (hactive : registry.activeFor? copy = some tracer) :
    tracer ∈ registry.tracersTo source ↔ tracer.source = source := by
  rw [mem_tracersTo_iff]
  exact and_iff_right ⟨copy, hactive⟩

/-- The number that comes with taking out all tracers to a source is that of the tracers listed for
it. -/
theorem disposeSource_fst (registry : Registry) (source : DocumentId) :
    (registry.disposeSource source).1 = (registry.tracersTo source).length := by
  have hparts := List.length_eq_length_filter_add (l := registry.active.entries)
    fun entry => decide (entry.2.source ≠ source)
  have hlisted : (registry.tracersTo source).length =
      (registry.active.entries.filter fun entry => !decide (entry.2.source ≠ source)).length := by
    simp [tracersTo, Table.values, List.filter_map, Function.comp_def]
  simp only [disposeSource, Table.size, Table.filter]
  omega

/-- What is done to the tracers to a source is done to no other tracer. -/
theorem activeFor?_mapTo_tracersTo (f : Tracer → Tracer) :
    (registry.mapTo source f).activeFor? copy = (registry.activeFor? copy).map fun tracer =>
      if tracer ∈ registry.tracersTo source then f tracer else tracer := by
  rw [activeFor?_mapTo]
  rcases hactive : registry.activeFor? copy with _ | tracer
  · rfl
  · simp only [Option.map_some, mem_tracersTo_iff_of_active hactive]

/-- Taking out all tracers to a source leaves exactly those that are not listed for it. -/
theorem activeFor?_disposeSource_iff :
    (registry.disposeSource source).2.activeFor? copy = some tracer ↔
      registry.activeFor? copy = some tracer ∧ tracer ∉ registry.tracersTo source := by
  rw [activeFor?_disposeSource, Option.filter_eq_some_iff, decide_eq_true_eq]
  apply and_congr_right
  intro hactive
  exact not_congr (mem_tracersTo_iff_of_active hactive).symm

theorem dispose_of_inactive (h : registry.isActive handle = false) :
    registry.dispose handle = (none, registry) := by
  rcases registry.dispose_cases handle with ⟨-, heq⟩ | ⟨tracer, hfind, -⟩
  · exact heq
  · rw [isActive, hfind] at h
    cases h

/-! ### Generations that are left -/

/-- The generations that are left after a call, for those that were left before it: one is given
out, or a tracer takes one. -/
def unusedAfter (registry : Registry) (unused : List Generation) : Call → List Generation
  | .nextGeneration => registry.nextGeneration.1 :: unused
  | .register tracer => unused.erase tracer.id
  | _ => unused

/-- A tracer that is registered has one of the generations that are left. -/
def Call.TakesFrom (unused : List Generation) : Call → Prop
  | .register tracer => tracer.id ∈ unused
  | _ => True

instance decidableTakesFrom (unused : List Generation) :
    (call : Call) → Decidable (call.TakesFrom unused)
  | .register tracer => inferInstanceAs (Decidable (tracer.id ∈ unused))
  | .nextGeneration => isTrue trivial
  | .record _ _ => isTrue trivial
  | .mergeStaged _ _ _ => isTrue trivial
  | .dispose _ => isTrue trivial
  | .disposeSource _ => isTrue trivial
  | .clear => isTrue trivial

/-- Every tracer that is registered in a run takes a generation that is left, so each of them has
one that was given out for it alone. -/
def FreshFrom (registry : Registry) (unused : List Generation) : List Call → Prop
  | [] => True
  | call :: rest =>
      call.TakesFrom unused ∧
        (registry.step call).2.FreshFrom (registry.unusedAfter unused call) rest

instance decidableFreshFrom (registry : Registry) (unused : List Generation) :
    (calls : List Call) → Decidable (registry.FreshFrom unused calls)
  | [] => isTrue trivial
  | call :: rest =>
      have := decidableFreshFrom (registry.step call).2 (registry.unusedAfter unused call) rest
      inferInstanceAs (Decidable (_ ∧ _))

/-- The generations that are left are all different, and the counter has passed them. -/
structure Accounted (registry : Registry) (unused : List Generation) : Prop where
  distinct : unused.Nodup
  issued : ∀ generation ∈ unused, generation.number ≤ registry.lastGeneration

theorem accounted_nil (registry : Registry) : registry.Accounted [] where
  distinct := List.nodup_nil
  issued _ hmem := absurd hmem List.not_mem_nil

theorem Accounted.step (h : registry.Accounted unused) (call : Call) :
    (registry.step call).2.Accounted (registry.unusedAfter unused call) := by
  have hlast := registry.lastGeneration_step call
  cases call with
  | nextGeneration =>
      constructor
      · refine List.nodup_cons.2 ⟨?_, h.distinct⟩
        -- the new number is above all that were given out
        intro hmem
        exact absurd (h.issued _ hmem) (Nat.not_succ_le_self registry.lastGeneration)
      · exact List.forall_mem_cons.2
          ⟨Nat.le_refl _, fun given hmem => Nat.le_trans (h.issued given hmem) hlast⟩
  | register tracer =>
      constructor
      · exact h.distinct.erase tracer.id
      · intro given hmem
        exact Nat.le_trans (h.issued given (List.mem_of_mem_erase hmem)) hlast
  | _ => exact ⟨h.distinct, fun given hmem => Nat.le_trans (h.issued given hmem) hlast⟩

/-- A generation that was given out and that is not among those that are left. -/
structure Spent (registry : Registry) (unused : List Generation) (generation : Generation) :
    Prop where
  issued : generation.number ≤ registry.lastGeneration
  taken : generation ∉ unused

/-- Of different generations, one that a tracer takes is not left. -/
theorem Accounted.spent_of_register (h : registry.Accounted unused) (htakes : tracer.id ∈ unused) :
    (registry.step (.register tracer)).2.Spent (unused.erase tracer.id) tracer.id where
  issued := h.issued tracer.id htakes
  taken := h.distinct.not_mem_erase

theorem Spent.step (h : registry.Spent unused generation) (call : Call) :
    (registry.step call).2.Spent (registry.unusedAfter unused call) generation where
  issued := Nat.le_trans h.issued (registry.lastGeneration_step call)
  taken := by
    cases call with
    | nextGeneration =>
        intro hmem
        rcases List.mem_cons.1 hmem with rfl | hleft
        · exact absurd h.issued (Nat.not_succ_le_self registry.lastGeneration)
        · exact h.taken hleft
    | register tracer => exact fun hmem => h.taken (List.mem_of_mem_erase hmem)
    | _ => exact h.taken

/-! ### Handles out of date -/

theorem isActive_eq_false_iff : registry.isActive handle = false ↔
    ∀ tracer, registry.activeFor? handle.copy = some tracer → tracer.id ≠ handle.generation := by
  rw [isActive, Option.isSome_eq_false_iff, Option.isNone_iff_eq_none,
    Option.eq_none_iff_forall_ne_some]
  constructor
  · intro h tracer hactive hid
    exact h tracer (find?_eq_some_iff.2 ⟨hactive, hid⟩)
  · intro h tracer hfind
    obtain ⟨hactive, hid⟩ := find?_eq_some_iff.1 hfind
    exact h tracer hactive hid

/-- A handle whose generation is taken does not come back with one call. -/
theorem Spent.inactive_step (h : registry.Spent unused handle.generation)
    (hinactive : registry.isActive handle = false) (htakes : call.TakesFrom unused) :
    (registry.step call).2.isActive handle = false := by
  rw [isActive_eq_false_iff] at hinactive ⊢
  intro tracer hactive hid
  rcases activeFor?_step hactive with ⟨rfl, -⟩ | ⟨old, hold, hhandle⟩
  · exact h.taken (hid ▸ htakes)
  · exact hinactive old hold ((congrArg Handle.generation hhandle).symm.trans hid)

/-- Nor does it with many. -/
theorem Spent.inactive_run (h : registry.Spent unused handle.generation)
    (hinactive : registry.isActive handle = false) (hfresh : registry.FreshFrom unused calls) :
    (registry.run calls).isActive handle = false := by
  induction calls generalizing registry unused with
  | nil => exact hinactive
  | cons call rest ih => exact ih (h.step call) (h.inactive_step hinactive hfresh.1) hfresh.2

/-- Whatever happens before the handle is out of date. -/
theorem Spent.inactive_run_append (h : registry.Spent unused handle.generation)
    (hfresh : registry.FreshFrom unused (middle ++ back))
    (hinactive : (registry.run middle).isActive handle = false) :
    (registry.run (middle ++ back)).isActive handle = false := by
  induction middle generalizing registry unused with
  | nil => exact h.inactive_run hinactive hfresh
  | cons call rest ih => exact ih (h.step call) hfresh.2 hinactive

theorem Accounted.inactive_run (h : registry.Accounted unused)
    (hfresh : registry.FreshFrom unused (front ++ .register tracer :: (middle ++ back)))
    (hinactive :
      (registry.run (front ++ .register tracer :: middle)).isActive tracer.handle = false) :
    (registry.run (front ++ .register tracer :: (middle ++ back))).isActive tracer.handle =
      false := by
  induction front generalizing registry unused with
  | nil =>
      have hspent : (registry.step (.register tracer)).2.Spent (unused.erase tracer.id)
          tracer.handle.generation := h.spent_of_register hfresh.1
      rw [List.nil_append, run_cons] at hinactive ⊢
      exact Spent.inactive_run_append hspent hfresh.2 hinactive
  | cons call rest ih => exact ih (h.step call) hfresh.2 hinactive

/-- **A registry answers for the tracers that were registered last.**  After every run of calls on
an empty registry, with any generations, each live tracer is found under its own copy.  A tracer
that is registered comes with the one that was live on its copy before, and it takes the place of
that one and of no other.  A handle finds the live tracer of its copy if that tracer has its
generation, and nothing otherwise.  To dispose of a handle that is not live changes nothing.  All
tracers to a source are listed for it, each of them once.  To take them out takes out exactly these,
and gives their number.  To record an edit of the source, or to merge what is staged, changes these
and leaves every other live tracer as it is.

If each tracer that is registered in a run takes a generation that was given out for it alone, a
handle that came from a registration and that is out of date once in the run is out of date at its
end. -/
theorem run_files_tracers :
    (∀ calls : List Call,
      let registry := run ∅ calls
      (∀ copy tracer, registry.activeFor? copy = some tracer → tracer.copy = copy) ∧
      (∀ tracer : Tracer,
        (registry.step (.register tracer)).1 =
          .registered tracer.handle (registry.activeFor? tracer.copy) ∧
        ∀ copy, (registry.step (.register tracer)).2.activeFor? copy =
          if copy = tracer.copy then some tracer else registry.activeFor? copy) ∧
      (∀ handle tracer, registry.find? handle = some tracer ↔
        registry.activeFor? handle.copy = some tracer ∧ tracer.id = handle.generation) ∧
      (∀ handle, registry.isActive handle = false →
        registry.step (.dispose handle) = (.disposed none, registry)) ∧
      (∀ source, (registry.tracersTo source).Nodup ∧
        (∀ tracer, tracer ∈ registry.tracersTo source ↔
          (∃ copy, registry.activeFor? copy = some tracer) ∧ tracer.source = source) ∧
        (registry.step (.disposeSource source)).1 =
          .removed (registry.tracersTo source).length ∧
        ∀ copy tracer, (registry.step (.disposeSource source)).2.activeFor? copy = some tracer ↔
          registry.activeFor? copy = some tracer ∧ tracer ∉ registry.tracersTo source) ∧
      (∀ source edit copy, (registry.step (.record source edit)).2.activeFor? copy =
        (registry.activeFor? copy).map fun tracer =>
          if tracer ∈ registry.tracersTo source then tracer.record edit else tracer) ∧
      ∀ source committed policy copy,
        (registry.step (.mergeStaged source committed policy)).2.activeFor? copy =
          (registry.activeFor? copy).map fun tracer =>
            if tracer ∈ registry.tracersTo source then (tracer.mergeStaged committed policy).2
            else tracer) ∧
    ∀ (front middle back : List Call) (call : Call) (handle : Handle) (superseded : Option Tracer),
      FreshFrom ∅ [] (front ++ call :: (middle ++ back)) →
        ((run ∅ front).step call).1 = .registered handle superseded →
        (run ∅ (front ++ call :: middle)).isActive handle = false →
        (run ∅ (front ++ call :: (middle ++ back))).isActive handle = false := by
  constructor
  · intro calls registry
    have hfiled : registry.Filed := filed_empty.run calls
    refine ⟨fun copy tracer hactive => hfiled.copy_eq hactive, ?_,
      fun handle tracer => find?_eq_some_iff, ?_, ?_, ?_, ?_⟩
    · exact fun tracer => ⟨rfl, fun copy => activeFor?_register⟩
    · intro handle hinactive
      simp only [step, dispose_of_inactive hinactive]
    · intro source
      refine ⟨hfiled.nodup_tracersTo source, fun tracer => mem_tracersTo_iff, ?_, ?_⟩
      · exact congrArg Reply.removed (registry.disposeSource_fst source)
      · exact fun copy tracer => activeFor?_disposeSource_iff
    · exact fun source edit copy => activeFor?_mapTo_tracersTo fun tracer => tracer.record edit
    · intro source committed policy copy
      exact activeFor?_mapTo_tracersTo fun tracer => (tracer.mergeStaged committed policy).2
  · intro front middle back call handle superseded hfresh hreply hinactive
    cases call with
    | register tracer =>
        simp only [step, Reply.registered.injEq] at hreply
        obtain ⟨rfl, -⟩ := hreply
        exact (accounted_nil ∅).inactive_run hfresh hinactive
    | _ => cases hreply

/-- Two generations are given out ahead, and the later one is used first.  The handle of the other
is superseded by a tracer that stages an edit.  To dispose of it changes nothing then, and it stays
out of date when its copy gets one more tracer. -/
theorem run_files_tracers_out_of_order :
    let tracer (generation copy : Nat) : Tracer :=
      .start ⟨generation⟩ ⟨copy⟩ ⟨0⟩ ⟨0, "", "x"⟩ .initial
    let handle : Handle := ⟨⟨2⟩, ⟨1⟩⟩
    let front : List Call := [.nextGeneration, .nextGeneration, .register (tracer 2 1)]
    let call : Call := .register (tracer 1 2)
    let middle : List Call := [.nextGeneration, .register (tracer 3 2), .record ⟨0⟩ ⟨0, "", "y"⟩]
    let back : List Call := [.dispose ⟨⟨2⟩, ⟨3⟩⟩, .nextGeneration, .register (tracer 4 2),
      .mergeStaged ⟨0⟩ ⟨1⟩ .always]
    let registry := run ∅ (front ++ call :: middle)
    FreshFrom ∅ [] (front ++ call :: (middle ++ back)) ∧
      ((run ∅ front).step call).1 = .registered handle none ∧
      registry.isActive handle = false ∧ registry.activeFor? ⟨2⟩ ≠ none ∧
      registry.step (.dispose handle) = (.disposed none, registry) ∧
      (registry.step (.disposeSource ⟨0⟩)).1 = .removed 2 ∧
      (run ∅ (front ++ call :: (middle ++ back))).activeFor? ⟨2⟩ ≠ none ∧
      (run ∅ (front ++ call :: (middle ++ back))).isActive handle = false := by
  intro tracer handle front call middle back registry
  have hfresh : FreshFrom ∅ [] (front ++ call :: (middle ++ back)) := by decide
  have hreply : ((run ∅ front).step call).1 = .registered handle none := rfl
  have hinactive : registry.isActive handle = false := by decide
  obtain ⟨-, -, -, hdispose, hsource, -, -⟩ := run_files_tracers.1 (front ++ call :: middle)
  refine ⟨hfresh, hreply, hinactive, by decide, hdispose handle hinactive, ?_, by decide, ?_⟩
  · have hlisted : (registry.tracersTo ⟨0⟩).length = 2 :=
      (registry.disposeSource_fst ⟨0⟩).symm.trans (by decide)
    exact (hsource ⟨0⟩).2.2.1.trans (congrArg Reply.removed hlisted)
  · exact run_files_tracers.2 front middle back call handle none hfresh hreply hinactive

end Retrace.Registry
