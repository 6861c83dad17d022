import Retrace.Proofs.Completion.Step

/-!
# How the tables of a reachable workspace agree

Documents, tracers, copies and sessions are written separately, and by ten kinds of call.
`Coherent` is the form of their agreement that calls are shown to keep.  Here it is read off for
a user of the tables: which keys they share, what a live tracer and its session are about, which
copies there are, and how numbers and stamps are ordered (`tables_agree`).
-/

namespace Retrace.Workspace

variable {workspace : Workspace} {source copy : DocumentId} {calls : List Call}

namespace Coherent

/-- Sessions and tracers are kept under the same copies. -/
theorem mem_keys_iff (h : workspace.Coherent) :
    copy ∈ workspace.sessions.keys ↔ copy ∈ workspace.registry.active.keys := by
  have hsession : workspace.sessions.find? copy = none ↔ copy ∉ workspace.sessions.keys :=
    Table.find?_eq_none_iff
  have htracer : workspace.registry.activeFor? copy = none ↔
      copy ∉ workspace.registry.active.keys := Table.find?_eq_none_iff
  rw [← Decidable.not_iff_not, ← hsession, ← htracer]
  exact h.session_none_iff

theorem listed_iff (h : workspace.Coherent) :
    workspace.copies.find? source = some copy ↔
      ∃ document, workspace.documents.find? copy = some document ∧
        document.copyOf = some source := by
  constructor
  · exact h.copy_open
  · rintro ⟨document, hopen, hcopy⟩
    exact h.copy_listed hopen hcopy

/-- The open copies of a document are the one that is listed, if there is one. -/
theorem copiesOf_eq (h : workspace.Coherent) (source : DocumentId) :
    workspace.documents.copiesOf source = (workspace.copies.find? source).toList := by
  have hmem : ∀ id, id ∈ workspace.documents.copiesOf source ↔
      workspace.copies.find? source = some id := by
    intro id
    rw [h.sound.mem_copiesOf_iff, h.listed_iff]
  have hnodup : (workspace.documents.copiesOf source).Nodup := h.sound.nodup_copiesOf source
  rcases hlisted : workspace.copies.find? source with _ | copy
  · rw [Option.toList_none, List.eq_nil_iff_forall_not_mem]
    intro id hid
    rw [hmem, hlisted] at hid
    cases hid
  · rw [Option.toList_some, ← List.perm_singleton]
    apply (List.perm_ext_iff_of_nodup hnodup (by simp)).2
    intro id
    rw [hmem, hlisted, Option.some.injEq, List.mem_singleton]
    exact eq_comm

theorem not_listed_of_closed (h : workspace.Coherent)
    (hclosed : workspace.documents.find? source = none) :
    workspace.copies.find? source = none := by
  rcases hlisted : workspace.copies.find? source with _ | copy
  · rfl
  · obtain ⟨document, hopen, hcopy⟩ := h.copy_open hlisted
    obtain ⟨original, horiginal, -⟩ := h.source_open hopen hcopy
    rw [hclosed] at horiginal
    cases horiginal

/-- The stamps that a live tracer and its source bear are in order. -/
theorem stamps_ordered (h : workspace.Coherent) {tracer : Tracer}
    (hactive : workspace.registry.activeFor? copy = some tracer) :
    ∃ original, workspace.documents.find? tracer.source = some original ∧
      tracer.baseline ≤ original.committed ∧ original.committed ≤ original.modified := by
  obtain ⟨original, horiginal, -⟩ := h.tracer_source_open hactive
  exact ⟨original, horiginal, h.baseline_le hactive horiginal,
    (h.sound.filed horiginal).committed_le⟩

end Coherent

/-- **The tables agree.**  In every state that calls of the workspace reach, whether they succeed or
fail, sessions and live tracers are kept under the same copies.  A live tracer is kept under its
own copy; this is an open copy of its source, the session there is about the same source, and the
source is open and is no copy.  The copy that is listed for a document is an open copy of it, and
every open copy is listed for its source, so that a document has at most one copy, and none if it
is closed.  Live tracers have different numbers, none above the number that was given out last,
and a baseline is not above the stamp of the last commit of the source, nor that one above the
stamp of its last change. -/
theorem tables_agree (config : Config) (policy : CommitPolicy)
    (hown : ∀ call ∈ calls, call.isOwn = true) :
    let workspace := (initial config policy).after calls
    (∀ copy, copy ∈ workspace.sessions.keys ↔ copy ∈ workspace.registry.active.keys) ∧
      (∀ copy tracer, workspace.registry.activeFor? copy = some tracer →
        tracer.copy = copy ∧
          (∃ copied, workspace.documents.find? copy = some copied ∧
            copied.copyOf = some tracer.source) ∧
          (∃ session, workspace.sessions.find? copy = some session ∧
            session.source = tracer.source) ∧
          ∃ original, workspace.documents.find? tracer.source = some original ∧
            original.copyOf = none) ∧
      ((∀ source copy, workspace.copies.find? source = some copy ↔
          ∃ copied, workspace.documents.find? copy = some copied ∧
            copied.copyOf = some source) ∧
        (∀ source, workspace.documents.copiesOf source =
          (workspace.copies.find? source).toList) ∧
        ∀ source, workspace.documents.find? source = none →
          workspace.copies.find? source = none) ∧
      (∀ copy other tracer tracer', workspace.registry.activeFor? copy = some tracer →
        workspace.registry.activeFor? other = some tracer' → copy ≠ other →
          tracer.id ≠ tracer'.id) ∧
      ∀ copy tracer, workspace.registry.activeFor? copy = some tracer →
        tracer.id.number ≤ workspace.registry.lastGeneration ∧
          ∃ original, workspace.documents.find? tracer.source = some original ∧
            tracer.baseline ≤ original.committed ∧ original.committed ≤ original.modified := by
  intro workspace
  have h : workspace.Coherent := (coherent_initial config policy).after hown
  refine ⟨fun _ => h.mem_keys_iff, ?_, ⟨fun _ _ => h.listed_iff, h.copiesOf_eq,
    fun _ => h.not_listed_of_closed⟩, ?_, ?_⟩
  · intro copy tracer hactive
    exact ⟨h.tracer_copy hactive, h.tracer_open hactive, h.exists_session hactive,
      h.tracer_source_open hactive⟩
  · intro copy other tracer tracer' hactive hactive' hne hid
    exact hne (h.generation_inj hactive hactive' hid)
  · intro copy tracer hactive
    exact ⟨h.generation_le hactive, h.stamps_ordered hactive⟩

/-- Completions on three documents, one of which is superseded and one ended with its document:
the copies of the other two are listed and the third copy is gone, although a start and an edit
failed meanwhile. -/
theorem tables_agree_on_three_documents :
    let calls : List Call := [.openDocument "/a" "ab", .openDocument "/b" "cd",
      .openDocument "/c" "ef", .start ⟨0⟩ ⟨1, 1, Nat.le_refl 1⟩ "X",
      .start ⟨1⟩ ⟨0, 1, Nat.zero_le 1⟩ "Y", .start ⟨2⟩ ⟨0, 2, Nat.zero_le 2⟩ "",
      .noteEdit ⟨0⟩ ⟨0, "q", ""⟩, .edit ⟨0⟩ ⟨0, 1, Nat.zero_le 1⟩ "", .commit ⟨0⟩,
      .start ⟨0⟩ ⟨9, 9, Nat.le_refl 9⟩ "Z", .start ⟨0⟩ ⟨0, 0, Nat.le_refl 0⟩ "Z",
      .closeDocument ⟨2⟩]
    let workspace := (initial .default .stampAdvanced).after calls
    (∀ call ∈ calls, call.isOwn = true) ∧
      workspace.registry.active.keys = [⟨3⟩, ⟨4⟩] ∧
      (∀ copy, copy ∈ workspace.sessions.keys ↔ copy = ⟨3⟩ ∨ copy = ⟨4⟩) ∧
      workspace.documents.copiesOf ⟨0⟩ = [⟨3⟩] ∧ workspace.documents.copiesOf ⟨1⟩ = [⟨4⟩] ∧
      workspace.documents.copiesOf ⟨2⟩ = [] ∧
      (workspace.registry.activeFor? ⟨3⟩).map Tracer.id ≠
        (workspace.registry.activeFor? ⟨4⟩).map Tracer.id := by
  intro calls workspace
  have hown : ∀ call ∈ calls, call.isOwn = true := by decide
  have hkeys : workspace.registry.active.keys = [⟨3⟩, ⟨4⟩] := by decide
  have hfirst : workspace.copies.find? ⟨0⟩ = some ⟨3⟩ := by decide
  have hsecond : workspace.copies.find? ⟨1⟩ = some ⟨4⟩ := by decide
  have hclosed : workspace.documents.find? ⟨2⟩ = none := by decide
  obtain ⟨tracer, hactive⟩ :
      ∃ tracer, workspace.registry.activeFor? ⟨3⟩ = some tracer :=
    Option.isSome_iff_exists.1 (by decide)
  obtain ⟨tracer', hactive'⟩ :
      ∃ tracer, workspace.registry.activeFor? ⟨4⟩ = some tracer :=
    Option.isSome_iff_exists.1 (by decide)
  obtain ⟨hsame, -, ⟨-, hcopies, hgone⟩, hdistinct, -⟩ :=
    tables_agree .default .stampAdvanced hown
  refine ⟨hown, hkeys, ?_, ?_, ?_, ?_, ?_⟩
  · intro copy
    rw [hsame copy, hkeys]
    simp
  · rw [hcopies, hfirst, Option.toList_some]
  · rw [hcopies, hsecond, Option.toList_some]
  · rw [hcopies, hgone _ hclosed, Option.toList_none]
  · rw [hactive, hactive']
    simpa using hdistinct _ _ tracer tracer' hactive hactive' (by decide)

end Retrace.Workspace
