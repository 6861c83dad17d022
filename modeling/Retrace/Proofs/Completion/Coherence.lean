import Retrace.Completion.Call
import Retrace.Proofs.Completion.Operations

/-!
# The parts of a workspace agree

Documents, tracers, copies and sessions are kept in separate tables, and every call writes
to several of them.  `Coherent` says how the tables agree: a tracer and a session always go
together, both under an open copy of an open source; the listed copies are exactly the open
ones; generations tell tracers apart.

Much of what calls do is to take something away: sessions end, copies and documents are closed.
`Shrinks` says what may be gone together, and a workspace that shrinks in this way stays coherent.
-/

namespace Retrace.Workspace

variable {workspace later smaller placed : Workspace} {source copy id : DocumentId}
  {tracer : Tracer} {document : Document}

/-- The tables of a workspace agree. -/
structure Coherent (workspace : Workspace) : Prop where
  sound : workspace.documents.Sound
  /-- A copy has a session exactly if it has a tracer, and both name one source. -/
  session_source : ∀ copy, (workspace.sessions.find? copy).map Session.source =
    (workspace.registry.activeFor? copy).map Tracer.source
  tracer_copy : ∀ {copy tracer}, workspace.registry.activeFor? copy = some tracer →
    tracer.copy = copy
  tracer_open : ∀ {copy tracer}, workspace.registry.activeFor? copy = some tracer →
    ∃ document, workspace.documents.find? copy = some document ∧
      document.copyOf = some tracer.source
  copy_open : ∀ {source copy}, workspace.copies.find? source = some copy →
    ∃ document, workspace.documents.find? copy = some document ∧ document.copyOf = some source
  copy_listed : ∀ {copy source document}, workspace.documents.find? copy = some document →
    document.copyOf = some source → workspace.copies.find? source = some copy
  source_open : ∀ {copy source document}, workspace.documents.find? copy = some document →
    document.copyOf = some source →
      ∃ original, workspace.documents.find? source = some original ∧ original.copyOf = none
  generation_le : ∀ {copy tracer}, workspace.registry.activeFor? copy = some tracer →
    tracer.id.number ≤ workspace.registry.lastGeneration
  generation_inj : ∀ {copy other tracer tracer'},
    workspace.registry.activeFor? copy = some tracer →
      workspace.registry.activeFor? other = some tracer' → tracer.id = tracer'.id → copy = other
  baseline_le : ∀ {copy tracer document}, workspace.registry.activeFor? copy = some tracer →
    workspace.documents.find? tracer.source = some document →
      tracer.baseline ≤ document.committed

/-- All places in open texts are within the limit of offsets. -/
def Fits (workspace : Workspace) : Prop :=
  ∀ document ∈ workspace.documents.documents.values, document.length ≤ Offset.limit

instance (workspace : Workspace) : Decidable workspace.Fits :=
  inferInstanceAs (Decidable (∀ document ∈ workspace.documents.documents.values, _))

theorem fits_iff : workspace.Fits ↔ ∀ id document,
    workspace.documents.find? id = some document → document.length ≤ Offset.limit := by
  constructor
  · intro h id document hopen
    exact h document (List.mem_map_of_mem (Table.find?_eq_some_iff.1 hopen))
  · intro h document hmem
    obtain ⟨entry, hentry, rfl⟩ := List.mem_map.1 hmem
    exact h entry.1 entry.2 (Table.find?_eq_some_iff.2 hentry)

theorem Fits.length_le (h : workspace.Fits)
    (hopen : workspace.documents.find? id = some document) : document.length ≤ Offset.limit :=
  fits_iff.1 h id document hopen

/-- The workspace in which a run begins: no document is open, and the policy is free. -/
def initial (config : Config) (policy : CommitPolicy) : Workspace :=
  (withConfig config).withPolicy policy

theorem coherent_initial (config : Config) (policy : CommitPolicy) :
    (initial config policy).Coherent where
  sound := Store.sound_empty
  session_source _ := rfl
  tracer_copy h := by cases h
  tracer_open h := by cases h
  copy_open h := by cases h
  copy_listed h := by cases h
  source_open h := by cases h
  generation_le h := by cases h
  generation_inj h := by cases h
  baseline_le h := by cases h

/-- A copy has another number than a document that is no copy. -/
theorem ne_of_copyOf_ne {other : DocumentId} {found : Document}
    (hopen : workspace.documents.find? id = some document)
    (hfound : workspace.documents.find? other = some found)
    (hne : document.copyOf ≠ found.copyOf) : id ≠ other := by
  intro heq
  rw [heq, hfound, Option.some.injEq] at hopen
  exact hne (congrArg Document.copyOf hopen.symm)

namespace Coherent

/-- The source of a live tracer is open and is no copy. -/
theorem tracer_source_open (h : workspace.Coherent)
    (hactive : workspace.registry.activeFor? copy = some tracer) :
    ∃ original, workspace.documents.find? tracer.source = some original ∧
      original.copyOf = none := by
  obtain ⟨document, hfind, hcopy⟩ := h.tracer_open hactive
  exact h.source_open hfind hcopy

theorem copyOf_of_listed (h : workspace.Coherent)
    (hlisted : workspace.copies.find? source = some copy)
    (hopen : workspace.documents.find? copy = some document) : document.copyOf = some source := by
  obtain ⟨found, hfound, hcopy⟩ := h.copy_open hlisted
  rw [hopen, Option.some.injEq] at hfound
  exact hfound ▸ hcopy

theorem source_eq (h : workspace.Coherent)
    (hactive : workspace.registry.activeFor? copy = some tracer)
    (hopen : workspace.documents.find? copy = some document)
    (hcopy : document.copyOf = some source) : tracer.source = source := by
  obtain ⟨found, hfound, hof⟩ := h.tracer_open hactive
  rw [hopen, Option.some.injEq] at hfound
  rw [← hfound, hcopy, Option.some.injEq] at hof
  exact hof.symm

theorem session_none_iff (h : workspace.Coherent) :
    workspace.sessions.find? copy = none ↔ workspace.registry.activeFor? copy = none := by
  have hsource := h.session_source copy
  constructor
  · intro hnone
    rw [hnone] at hsource
    exact Option.map_eq_none_iff.1 hsource.symm
  · intro hnone
    rw [hnone] at hsource
    exact Option.map_eq_none_iff.1 hsource

theorem exists_tracer (h : workspace.Coherent) {session : Session}
    (hsession : workspace.sessions.find? copy = some session) :
    ∃ tracer, workspace.registry.activeFor? copy = some tracer ∧
      session.source = tracer.source := by
  have hsource := h.session_source copy
  rw [hsession] at hsource
  obtain ⟨tracer, hactive, heq⟩ := Option.map_eq_some_iff.1 hsource.symm
  exact ⟨tracer, hactive, heq.symm⟩

theorem exists_session (h : workspace.Coherent)
    (hactive : workspace.registry.activeFor? copy = some tracer) :
    ∃ session, workspace.sessions.find? copy = some session ∧
      session.source = tracer.source := by
  have hsource := h.session_source copy
  rw [hactive] at hsource
  exact Option.map_eq_some_iff.1 hsource

end Coherent

/-! ### Taking away -/

/-- Documents, sessions with their tracers, and listed copies may be gone, and nothing else is
different.  A copy that is closed loses its session and is no longer listed; one that stays
open keeps both its source and its entry. -/
structure Shrinks (workspace smaller : Workspace) : Prop where
  sound : smaller.documents.Sound
  config : smaller.config = workspace.config
  policy : smaller.policy = workspace.policy
  lastGeneration : smaller.registry.lastGeneration = workspace.registry.lastGeneration
  document : ∀ id, smaller.documents.find? id = workspace.documents.find? id ∨
    smaller.documents.find? id = none
  session : ∀ copy,
    (smaller.registry.activeFor? copy = workspace.registry.activeFor? copy ∧
        smaller.sessions.find? copy = workspace.sessions.find? copy) ∨
      smaller.registry.activeFor? copy = none ∧ smaller.sessions.find? copy = none
  copies : ∀ source, smaller.copies.find? source = workspace.copies.find? source ∨
    smaller.copies.find? source = none
  copy_closed : ∀ {copy source document}, workspace.documents.find? copy = some document →
    document.copyOf = some source → smaller.documents.find? copy = none →
      smaller.registry.activeFor? copy = none ∧ smaller.copies.find? source = none
  copy_kept : ∀ {copy source document}, smaller.documents.find? copy = some document →
    document.copyOf = some source →
      smaller.copies.find? source = some copy ∧ smaller.documents.find? source ≠ none

namespace Shrinks

theorem find?_eq_some (h : Shrinks workspace smaller)
    (hfind : smaller.documents.find? id = some document) :
    workspace.documents.find? id = some document := by
  rcases h.document id with heq | hnone
  · rw [← heq, hfind]
  · rw [hnone] at hfind
    cases hfind

theorem activeFor?_eq_some (h : Shrinks workspace smaller)
    (hactive : smaller.registry.activeFor? copy = some tracer) :
    workspace.registry.activeFor? copy = some tracer := by
  rcases h.session copy with ⟨heq, -⟩ | ⟨hnone, -⟩
  · rw [← heq, hactive]
  · rw [hnone] at hactive
    cases hactive

theorem sessions_eq_some (h : Shrinks workspace smaller) {session : Session}
    (hsession : smaller.sessions.find? copy = some session) :
    workspace.sessions.find? copy = some session := by
  rcases h.session copy with ⟨-, heq⟩ | ⟨-, hnone⟩
  · rw [← heq, hsession]
  · rw [hnone] at hsession
    cases hsession

theorem coherent (h : Shrinks workspace smaller) (hcoherent : workspace.Coherent) :
    smaller.Coherent where
  sound := h.sound
  session_source copy := by
    rcases h.session copy with ⟨hactive, hsession⟩ | ⟨hactive, hsession⟩
    · rw [hactive, hsession, hcoherent.session_source]
    · rw [hactive, hsession]
      rfl
  tracer_copy hactive := hcoherent.tracer_copy (h.activeFor?_eq_some hactive)
  tracer_open := by
    intro copy tracer hactive
    obtain ⟨document, hfind, hcopy⟩ := hcoherent.tracer_open (h.activeFor?_eq_some hactive)
    rcases h.document copy with heq | hnone
    · exact ⟨document, heq.trans hfind, hcopy⟩
    · rw [(h.copy_closed hfind hcopy hnone).1] at hactive
      cases hactive
  copy_open := by
    intro source copy hlisted
    rcases h.copies source with heq | hnone
    · obtain ⟨document, hfind, hcopy⟩ := hcoherent.copy_open (heq ▸ hlisted)
      rcases h.document copy with hsame | hclosed
      · exact ⟨document, hsame.trans hfind, hcopy⟩
      · rw [(h.copy_closed hfind hcopy hclosed).2] at hlisted
        cases hlisted
    · rw [hnone] at hlisted
      cases hlisted
  copy_listed hfind hcopy := (h.copy_kept hfind hcopy).1
  source_open := by
    intro copy source document hfind hcopy
    obtain ⟨original, horiginal, hnocopy⟩ :=
      hcoherent.source_open (h.find?_eq_some hfind) hcopy
    rcases h.document source with heq | hnone
    · exact ⟨original, heq.trans horiginal, hnocopy⟩
    · exact absurd hnone (h.copy_kept hfind hcopy).2
  generation_le hactive := by
    rw [h.lastGeneration]
    exact hcoherent.generation_le (h.activeFor?_eq_some hactive)
  generation_inj hactive hactive' :=
    hcoherent.generation_inj (h.activeFor?_eq_some hactive) (h.activeFor?_eq_some hactive')
  baseline_le hactive hfind :=
    hcoherent.baseline_le (h.activeFor?_eq_some hactive) (h.find?_eq_some hfind)

end Shrinks

/-- Sessions on a source end together with their copy, whether the source stays open or is closed
at the same time. -/
theorem Coherent.shrinks_endSessionsOn (h : workspace.Coherent) {documents : Store}
    (hsound : documents.Sound)
    (hother : ∀ id, id ≠ source → documents.find? id = workspace.documents.find? id)
    (hsource : documents.find? source = workspace.documents.find? source ∨
      documents.find? source = none ∧
        ∀ document, workspace.documents.find? source = some document → document.copyOf = none) :
    Shrinks workspace ({ workspace with documents }.endSessionsOn source) := by
  have hfind : ∀ id, ({ workspace with documents }.endSessionsOn source).documents.find? id =
      if workspace.copies.find? source = some id then none else documents.find? id := fun id =>
    find?_documents_endSessionsOn
  -- only the source itself may be gone besides its copy
  have hgone : ∀ {id document}, workspace.documents.find? id = some document →
      document.copyOf ≠ none → documents.find? id = workspace.documents.find? id := by
    intro id document hopen hcopy
    by_cases heq : id = source
    · subst heq
      rcases hsource with hsame | ⟨-, hnone⟩
      · exact hsame
      · exact absurd (hnone document hopen) hcopy
    · exact hother id heq
  refine
    { sound := ?_, config := ?_, policy := ?_, lastGeneration := ?_, document := ?_,
      session := ?_, copies := ?_, copy_closed := ?_, copy_kept := ?_ }
  · rw [documents_endSessionsOn]
    split
    · exact hsound
    · exact hsound.close _
  · unfold endSessionsOn
    split <;> rfl
  · unfold endSessionsOn
    split <;> rfl
  · exact lastGeneration_endSessionsOn
  · intro id
    rw [hfind]
    split
    · exact Or.inr rfl
    · by_cases heq : id = source
      · subst heq
        exact hsource.imp_right fun hclosed => hclosed.1
      · exact Or.inl (hother id heq)
  · intro copy
    rw [activeFor?_endSessionsOn, sessions_endSessionsOn]
    rcases hactive : workspace.registry.activeFor? copy with _ | tracer
    · have hsession := h.session_none_iff.2 hactive
      simp [hsession]
    · obtain ⟨session, hsession, heq⟩ := h.exists_session hactive
      by_cases hends : tracer.source = source <;>
        simp [hsession, heq, hends, Option.filter]
  · intro other
    rw [copies_endSessionsOn]
    split
    · exact Or.inr rfl
    · exact Or.inl rfl
  · intro copy other document hopen hcopy hclosed
    -- an open copy is closed only if it is the copy of this source
    have hlisted : workspace.copies.find? source = some copy := by
      rw [hfind] at hclosed
      split at hclosed
      · assumption
      · rw [hgone hopen (by simp [hcopy]), hopen] at hclosed
        cases hclosed
    have hof := h.copyOf_of_listed hlisted hopen
    rw [hcopy, Option.some.injEq] at hof
    subst hof
    rw [activeFor?_endSessionsOn, copies_endSessionsOn]
    refine ⟨?_, if_pos rfl⟩
    rcases hactive : workspace.registry.activeFor? copy with _ | tracer
    · simp
    · simp [h.source_eq hactive hopen hcopy, Option.filter]
  · intro copy other document hkept hcopy
    rw [hfind] at hkept
    split at hkept
    · cases hkept
    · next hnot =>
        have hopen : workspace.documents.find? copy = some document := by
          by_cases heq : copy = source
          · subst heq
            rcases hsource with hsame | ⟨hnone, -⟩
            · rw [← hsame, hkept]
            · rw [hnone] at hkept
              cases hkept
          · rw [← hother copy heq, hkept]
        have hlisted := h.copy_listed hopen hcopy
        have hne : other ≠ source := by
          intro heq
          subst heq
          exact hnot hlisted
        obtain ⟨original, horiginal, hnocopy⟩ := h.source_open hopen hcopy
        have hoff : workspace.copies.find? source ≠ some other := by
          intro heq
          rw [h.copyOf_of_listed heq horiginal] at hnocopy
          cases hnocopy
        rw [copies_endSessionsOn, if_neg hne, hfind, if_neg hoff, hother other hne, horiginal]
        exact ⟨hlisted, by simp⟩

theorem Coherent.shrinks_withoutSession (h : workspace.Coherent) (copy : DocumentId) :
    Shrinks workspace (workspace.withoutSession copy) where
  sound := h.sound
  config := rfl
  policy := rfl
  lastGeneration := rfl
  document _ := Or.inl rfl
  session other := by
    rw [activeFor?_withoutSession, sessions_withoutSession]
    split
    · exact Or.inr ⟨rfl, rfl⟩
    · exact Or.inl ⟨rfl, rfl⟩
  copies _ := Or.inl rfl
  copy_closed hopen _ hclosed := by
    have hnone : workspace.documents.find? _ = none := hclosed
    rw [hopen] at hnone
    cases hnone
  copy_kept hfind hcopy := by
    obtain ⟨original, horiginal, -⟩ := h.source_open hfind hcopy
    refine ⟨h.copy_listed hfind hcopy, ?_⟩
    intro hnone
    have hgone : workspace.documents.find? _ = none := hnone
    rw [horiginal] at hgone
    cases hgone

/-- Closing a copy takes it out of the listed copies and ends its session. -/
theorem Coherent.shrinks_closeCopy (h : workspace.Coherent)
    (hopen : workspace.documents.find? copy = some document)
    (hcopy : document.copyOf = some source)
    (hdocuments : smaller.documents = (workspace.documents.close copy).2)
    (hcopies : smaller.copies = workspace.copies.erase source)
    (hactive : ∀ id, smaller.registry.activeFor? id =
      if id = copy then none else workspace.registry.activeFor? id)
    (hsessions : ∀ id, smaller.sessions.find? id =
      if id = copy then none else workspace.sessions.find? id)
    (hgeneration : smaller.registry.lastGeneration = workspace.registry.lastGeneration)
    (hconfig : smaller.config = workspace.config) (hpolicy : smaller.policy = workspace.policy) :
    Shrinks workspace smaller := by
  have hfind : ∀ id, smaller.documents.find? id =
      if id = copy then none else workspace.documents.find? id := by
    intro id
    rw [hdocuments, Store.find?_close]
  have hlisted : ∀ id, smaller.copies.find? id =
      if id = source then none else workspace.copies.find? id := by
    intro id
    rw [hcopies, Table.find?_erase]
  refine
    { sound := hdocuments ▸ h.sound.close copy, config := hconfig, policy := hpolicy,
      lastGeneration := hgeneration, document := ?_, session := ?_, copies := ?_,
      copy_closed := ?_, copy_kept := ?_ }
  · intro id
    rw [hfind]
    split
    · exact Or.inr rfl
    · exact Or.inl rfl
  · intro id
    rw [hactive, hsessions]
    split
    · exact Or.inr ⟨rfl, rfl⟩
    · exact Or.inl ⟨rfl, rfl⟩
  · intro id
    rw [hlisted]
    split
    · exact Or.inr rfl
    · exact Or.inl rfl
  · intro other otherSource found hother hof hclosed
    rw [hfind] at hclosed
    split at hclosed
    · next heq =>
        subst heq
        rw [hopen, Option.some.injEq] at hother
        subst hother
        rw [hcopy, Option.some.injEq] at hof
        subst hof
        rw [hactive, if_pos rfl, hlisted, if_pos rfl]
        exact ⟨rfl, rfl⟩
    · rw [hother] at hclosed
      cases hclosed
  · intro other otherSource found hkept hof
    rw [hfind] at hkept
    split at hkept
    · cases hkept
    · next hne =>
        have hothers := h.copy_listed hkept hof
        -- one source has one listed copy, so this is a copy of another source
        have hneSource : otherSource ≠ source := by
          intro heq
          subst heq
          rw [h.copy_listed hopen hcopy, Option.some.injEq] at hothers
          exact hne hothers.symm
        obtain ⟨original, horiginal, hnocopy⟩ := h.source_open hkept hof
        have hneCopy : otherSource ≠ copy :=
          ne_of_copyOf_ne horiginal hopen (by simp [hnocopy, hcopy])
        rw [hlisted, if_neg hneSource, hfind, if_neg hneCopy, horiginal]
        exact ⟨hothers, by simp⟩

theorem Coherent.shrinks_disposeAll (h : workspace.Coherent) :
    Shrinks workspace workspace.disposeAll where
  sound := sound_foldl_close _ h.sound
  config := rfl
  policy := rfl
  lastGeneration := rfl
  document id := by
    rw [find?_documents_disposeAll]
    split
    · exact Or.inr rfl
    · exact Or.inl rfl
  session _ := Or.inr ⟨rfl, rfl⟩
  copies _ := Or.inr rfl
  copy_closed _ _ _ := ⟨rfl, rfl⟩
  copy_kept := by
    intro copy source document hkept hcopy
    rw [find?_documents_disposeAll] at hkept
    split at hkept
    · cases hkept
    · next hnot => exact absurd (mem_values_iff.2 ⟨source, h.copy_listed hkept hcopy⟩) hnot

end Retrace.Workspace
