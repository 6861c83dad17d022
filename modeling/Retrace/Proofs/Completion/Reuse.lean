import Retrace.Proofs.Completion.Drain
import Retrace.Proofs.Completion.Step

/-!
# Which copy a completion uses again

Completions on a source use one copy as long as it is listed and open (`reusable?`).  Calls past the
workspace do not keep the lists: somebody may close the copy in use, or close a copy of their own
through the workspace, which then forgets the copy in use.  Such a call strands the handle on the
copy (`strands`).  In runs of the workspace alone no call does (`Coherent.strandsNone`).  As long as
none does, every handle that is up to date is on the copy that the next completion on its source
uses again (`Listed`).
-/

namespace Retrace.Workspace

variable {workspace changed placed : Workspace} {source copy id : DocumentId} {document : Document}
  {tracer : Tracer} {call : Call} {calls : List Call}

/-- The copy that the next completion on a document uses again. -/
def reusable? (workspace : Workspace) (source : DocumentId) : Option DocumentId :=
  (workspace.copies.find? source).filter fun copy => workspace.documents.contains copy

/-- Whether a handle on a copy is up to date. -/
def serves (workspace : Workspace) (copy : DocumentId) : Bool :=
  (workspace.activeTracer? copy).any fun tracer => workspace.documents.contains tracer.source

/-- A call parts a handle that is up to date from the copy in use.  The copy is closed past the
workspace, or another copy of the same source is closed, and the workspace forgets the one in
use. -/
def strands (workspace : Workspace) : Call → Bool
  | .onDocuments (.close id) => workspace.serves id
  | .closeDocument id =>
      ((workspace.documents.find? id).bind Document.copyOf).any fun source =>
        (workspace.copies.find? source).any fun copy => copy ≠ id && workspace.serves copy
  | _ => false

/-- No call of a run strands a handle. -/
def StrandsNone (workspace : Workspace) : List Call → Prop
  | [] => True
  | call :: rest =>
      workspace.strands call = false ∧ (workspace.step call).2.StrandsNone rest

instance decidableStrandsNone (workspace : Workspace) :
    (calls : List Call) → Decidable (workspace.StrandsNone calls)
  | [] => inferInstanceAs (Decidable True)
  | call :: rest =>
      have := decidableStrandsNone (workspace.step call).2 rest
      inferInstanceAs (Decidable (_ ∧ _))

theorem reusable?_eq_some_iff : workspace.reusable? source = some copy ↔
    workspace.copies.find? source = some copy ∧
      ∃ document, workspace.documents.find? copy = some document := by
  simp only [reusable?, Option.filter_eq_some_iff, Store.contains, Option.isSome_iff_exists]

theorem serves_eq_false_iff : workspace.serves copy = false ↔
    ∀ tracer, workspace.registry.activeFor? copy = some tracer →
      workspace.documents.find? tracer.source = none := by
  unfold serves activeTracer?
  rcases workspace.registry.activeFor? copy with _ | tracer <;> simp [Store.contains]

/-- The workspace closes no copy beside the copy in use, because it makes no second one. -/
theorem Coherent.strands_eq_false (h : workspace.Coherent) (hown : call.isOwn = true) :
    workspace.strands call = false := by
  cases call with
  | closeDocument id =>
      rcases hopen : workspace.documents.find? id with _ | document
      · simp [strands, hopen]
      · rcases hcopy : document.copyOf with _ | source
        · simp [strands, hopen, hcopy]
        · simp [strands, hopen, hcopy, h.copy_listed hopen hcopy]
  | onDocuments call => cases hown
  | _ => rfl

theorem Coherent.strandsNone (h : workspace.Coherent) (hown : ∀ call ∈ calls, call.isOwn = true) :
    workspace.StrandsNone calls := by
  induction calls generalizing workspace with
  | nil => trivial
  | cons call rest ih =>
      rw [List.forall_mem_cons] at hown
      exact ⟨h.strands_eq_false hown.1, ih (h.step hown.1) hown.2⟩

theorem Placed.grows {text : String} (hplaced : Placed workspace source text copy placed)
    (h : workspace.documents.Sound) : workspace.documents.Grows placed.documents := by
  rcases hplaced.documents with ⟨old, -, hopen, heq⟩ | ⟨-, -, heq⟩
  · rw [heq]
    exact h.grows_setText hopen text
  · rw [heq]
    exact h.grows_add_copy source text

/-- Every tracer to an open source is on the copy that the next completion uses again.  A listed
copy that is open is a copy of the source, and no other document is opened under its number. -/
structure Listed (workspace : Workspace) : Prop where
  dated : workspace.Dated
  copy_given : ∀ {source copy}, workspace.copies.find? source = some copy →
    copy.index < workspace.documents.nextIndex
  copyOf_listed : ∀ {source copy document}, workspace.copies.find? source = some copy →
    workspace.documents.find? copy = some document → document.copyOf = some source
  tracer_listed : ∀ {copy tracer original},
    workspace.registry.activeFor? copy = some tracer →
      workspace.documents.find? tracer.source = some original →
        workspace.reusable? tracer.source = some copy

theorem listed_initial (config : Config) (policy : CommitPolicy) :
    (initial config policy).Listed where
  dated := dated_initial config policy
  copy_given h := by cases h
  copyOf_listed h := by cases h
  tracer_listed h := by cases h

namespace Listed

/-- Documents change and nothing is closed, and tracers keep their sources. -/
theorem of_grows (h : workspace.Listed) (hdated : changed.Dated)
    (hgrows : workspace.documents.Grows changed.documents)
    (hcopies : changed.copies = workspace.copies)
    (hactive : ∀ {copy tracer}, changed.registry.activeFor? copy = some tracer →
      ∃ old, workspace.registry.activeFor? copy = some old ∧ old.source = tracer.source) :
    changed.Listed where
  dated := hdated
  copy_given hlisted :=
    Nat.lt_of_lt_of_le (h.copy_given (hcopies ▸ hlisted)) hgrows.ages.nextIndex_le
  copyOf_listed := by
    intro source copy document hlisted hopen
    rw [hcopies] at hlisted
    obtain ⟨old, hold, hkind⟩ := hgrows.exists_old (h.copy_given hlisted) hopen
    exact hkind ▸ h.copyOf_listed hlisted hold
  tracer_listed := by
    intro copy tracer original hlive hopen
    obtain ⟨old, hold, hsource⟩ := hactive hlive
    rw [← hsource] at hopen ⊢
    obtain ⟨before, hbefore, -⟩ := hgrows.exists_old (h.dated.source_given hold) hopen
    have hreusable := h.tracer_listed hold hbefore
    rw [reusable?_eq_some_iff] at hreusable ⊢
    obtain ⟨hlisted, copied, hcopied⟩ := hreusable
    obtain ⟨found, hfound, -⟩ := hgrows.kept hcopied
    exact ⟨hcopies ▸ hlisted, found, hfound⟩

/-- A document that is not the copy of a handle up to date is closed. -/
theorem close (h : workspace.Listed) (hidle : workspace.serves id = false) :
    { workspace with documents := (workspace.documents.close id).2 }.Listed where
  dated := h.dated.of_ages (h.dated.sound.ages_close id) fun hactive => hactive
  copy_given hlisted := Nat.lt_of_lt_of_eq (h.copy_given hlisted) Store.nextIndex_close.symm
  copyOf_listed := by
    intro source copy document hlisted hopen
    rw [Store.find?_close] at hopen
    split at hopen
    · cases hopen
    · exact h.copyOf_listed hlisted hopen
  tracer_listed := by
    intro copy tracer original hactive hopen
    rw [Store.find?_close] at hopen
    split at hopen
    · cases hopen
    · have hreusable := h.tracer_listed hactive hopen
      have hne : copy ≠ id := by
        rintro rfl
        rw [serves_eq_false_iff.1 hidle tracer hactive] at hopen
        cases hopen
      rw [reusable?_eq_some_iff] at hreusable ⊢
      obtain ⟨hlisted, copied, hcopied⟩ := hreusable
      exact ⟨hlisted, copied, Store.find?_close.trans ((if_neg hne).trans hcopied)⟩

/-- The copy of a source on which no handle is up to date is forgotten. -/
theorem forget (h : workspace.Listed)
    (hidle : ∀ {copy tracer}, workspace.registry.activeFor? copy = some tracer →
      tracer.source = source → workspace.documents.find? source = none) :
    { workspace with copies := workspace.copies.erase source }.Listed where
  dated := h.dated.of_ages h.dated.sound.ages_refl fun hactive => hactive
  copy_given := by
    intro other copy hlisted
    rw [Table.find?_erase] at hlisted
    split at hlisted
    · cases hlisted
    · exact h.copy_given hlisted
  copyOf_listed := by
    intro other copy document hlisted hopen
    rw [Table.find?_erase] at hlisted
    split at hlisted
    · cases hlisted
    · exact h.copyOf_listed hlisted hopen
  tracer_listed := by
    intro copy tracer original hactive hopen
    have hne : tracer.source ≠ source := by
      intro hsource
      rw [hsource, hidle hactive hsource] at hopen
      cases hopen
    have hreusable := h.tracer_listed hactive hopen
    rw [reusable?_eq_some_iff] at hreusable ⊢
    exact ⟨(Table.find?_erase ..).trans ((if_neg hne).trans hreusable.1), hreusable.2⟩

theorem withoutSession (h : workspace.Listed) (copy : DocumentId) :
    (workspace.withoutSession copy).Listed := by
  refine h.of_grows (h.dated.withoutSession copy) h.dated.sound.grows_refl rfl ?_
  intro id tracer hactive
  rw [activeFor?_withoutSession] at hactive
  split at hactive
  · cases hactive
  · exact ⟨tracer, hactive, rfl⟩

/-- The sessions on a source end, its copy is closed, and the copy is forgotten. -/
theorem endSessionsOn (h : workspace.Listed) (source : DocumentId) :
    (workspace.endSessionsOn source).Listed := by
  let ended : Workspace :=
    { workspace with
      registry := (workspace.registry.disposeSource source).2
      sessions := workspace.sessions.filter fun _ session => session.source ≠ source }
  have hkept : ∀ {copy tracer}, ended.registry.activeFor? copy = some tracer →
      workspace.registry.activeFor? copy = some tracer ∧ tracer.source ≠ source := by
    intro copy tracer hactive
    rw [Registry.activeFor?_disposeSource, Option.filter_eq_some_iff] at hactive
    exact ⟨hactive.1, of_decide_eq_true hactive.2⟩
  have hended : ended.Listed :=
    h.of_grows (h.dated.of_ages h.dated.sound.ages_refl fun hactive => (hkept hactive).1)
      h.dated.sound.grows_refl rfl fun hactive => ⟨_, (hkept hactive).1, rfl⟩
  unfold Workspace.endSessionsOn
  split
  · exact hended
  · next copy hlisted =>
      have hidle : ended.serves copy = false := by
        rw [serves_eq_false_iff]
        intro tracer hactive
        change workspace.documents.find? tracer.source = none
        rcases hopen : workspace.documents.find? tracer.source with _ | original
        · rfl
        · -- an open copy is the copy of one source
          obtain ⟨hother, copied, hcopied⟩ :=
            reusable?_eq_some_iff.1 (hended.tracer_listed hactive hopen)
          have hof := h.copyOf_listed hlisted hcopied
          rw [h.copyOf_listed hother hcopied, Option.some.injEq] at hof
          exact absurd hof (hkept hactive).2
      exact (hended.close hidle).forget fun hactive hsource =>
        absurd hsource (hkept hactive).2

theorem openPath (h : workspace.Listed) (path text : String) :
    { workspace with documents := (workspace.documents.openPath path text).2 }.Listed :=
  h.of_grows (h.dated.openPath path text) (h.dated.sound.grows_openPath path text) rfl
    fun hactive => ⟨_, hactive, rfl⟩

/-- The copy of a handle that is up to date is a copy, so a source that is closed is none. -/
theorem serves_eq_false (h : workspace.Listed)
    (hopen : workspace.documents.find? id = some document) (hnocopy : document.copyOf = none) :
    workspace.serves id = false := by
  rw [serves_eq_false_iff]
  intro tracer hactive
  rcases horiginal : workspace.documents.find? tracer.source with _ | original
  · rfl
  · obtain ⟨hlisted, -⟩ := reusable?_eq_some_iff.1 (h.tracer_listed hactive horiginal)
    rw [h.copyOf_listed hlisted hopen] at hnocopy
    cases hnocopy

/-- A copy without a handle is closed, and the copy in use of its source is forgotten with it. -/
theorem closeCopy (h : workspace.Listed) (hnone : workspace.registry.activeFor? id = none)
    (hidle : ∀ {copy tracer}, workspace.registry.activeFor? copy = some tracer →
      tracer.source = source → workspace.documents.find? source = none) :
    { workspace with
      documents := (workspace.documents.close id).2
      copies := workspace.copies.erase source }.Listed := by
  have hserves : workspace.serves id = false := by
    rw [serves_eq_false_iff, hnone]
    intro tracer hactive
    cases hactive
  refine (h.close hserves).forget ?_
  intro copy tracer hactive hsource
  rw [Store.find?_close, hidle hactive hsource, ite_self]

/-- If closing a copy strands no handle, the handles on its source are on the copy itself. -/
theorem find?_source_eq_none (h : workspace.Listed)
    (hstays : workspace.strands (.closeDocument id) = false)
    (hopen : workspace.documents.find? id = some document) (hcopy : document.copyOf = some source)
    (hactive : workspace.registry.activeFor? copy = some tracer) (hne : copy ≠ id)
    (hsource : tracer.source = source) : workspace.documents.find? source = none := by
  subst hsource
  rcases horiginal : workspace.documents.find? tracer.source with _ | original
  · rfl
  · obtain ⟨hlisted, -⟩ := reusable?_eq_some_iff.1 (h.tracer_listed hactive horiginal)
    have hidle : workspace.serves copy = false := by
      simpa [strands, hopen, hcopy, hlisted, hne] using hstays
    rw [← horiginal, serves_eq_false_iff.1 hidle tracer hactive]

/-- One document changes, and its tracers with it. -/
theorem of_mapTo (h : workspace.Listed) {f : Tracer → Tracer} (hdated : changed.Dated)
    (hgrows : workspace.documents.Grows changed.documents)
    (hcopies : changed.copies = workspace.copies)
    (hregistry : changed.registry = workspace.registry.mapTo source f)
    (hsource : ∀ tracer, (f tracer).source = tracer.source) : changed.Listed := by
  refine h.of_grows hdated hgrows hcopies ?_
  intro copy tracer hactive
  rw [hregistry, Registry.activeFor?_mapTo] at hactive
  obtain ⟨old, hold, rfl⟩ := Option.map_eq_some_iff.1 hactive
  refine ⟨old, hold, ?_⟩
  split
  · exact (hsource old).symm
  · rfl

theorem withEdit (h : workspace.Listed) {edit : Edit} {edited : Document}
    (hopen : workspace.documents.find? source = some document)
    (happly : document.apply edit = .ok edited) :
    (workspace.withEdit source edit edited).Listed := by
  have hdated := h.dated.withEdit hopen happly
  obtain ⟨-, text, -, rfl⟩ := Document.apply_eq_ok_iff.1 happly
  exact h.of_mapTo hdated (h.dated.sound.grows_setText hopen text) rfl rfl fun _ => rfl

theorem withCommit (h : workspace.Listed)
    (hopen : workspace.documents.find? source = some document) :
    (workspace.withCommit source document).Listed :=
  h.of_mapTo (h.dated.withCommit hopen) (h.dated.sound.grows_commit hopen) rfl rfl
    fun _ => Tracer.source_mergeStaged

/-- The copy in which a text is placed is an open copy of the source. -/
theorem exists_placed (h : workspace.Listed) {text : String}
    (hplaced : Placed workspace source text copy placed) :
    copy.index < placed.documents.nextIndex ∧
      ∃ found, placed.documents.find? copy = some found ∧ found.copyOf = some source := by
  rcases hplaced.documents with ⟨old, hlisted, hold, heq⟩ | ⟨-, rfl, heq⟩
  · rw [heq]
    have hof : old.copyOf = some source := h.copyOf_listed hlisted hold
    exact ⟨h.copy_given hlisted, old.setText text, Store.find?_put.trans (if_pos rfl), hof⟩
  · rw [heq]
    have hfound : (workspace.documents.add none text (some source)).2.find?
        ⟨workspace.documents.nextIndex⟩ =
          some (.fresh ⟨workspace.documents.nextIndex⟩ none text (some source)) := by
      rw [Store.find?_add, if_pos rfl]
    exact ⟨Nat.lt_succ_self _, _, hfound, rfl⟩

/-- A new tracer is on the copy that is listed for its source from then on. -/
theorem withTracer (h : workspace.Listed) {text : String} {creation : Edit} {session : Session}
    (hopen : workspace.documents.find? source = some document)
    (hplaced : Placed workspace source text copy placed)
    (htracer : tracer = .start ⟨workspace.registry.lastGeneration + 1⟩ copy source creation
      document.committed) : (placed.withTracer tracer session).Listed := by
  have hgrows : workspace.documents.Grows placed.documents := hplaced.grows h.dated.sound
  obtain ⟨hgiven, found, hfound, hof⟩ := h.exists_placed hplaced
  have hactive : ∀ {id}, (placed.withTracer tracer session).registry.activeFor? id =
      if id = copy then some tracer else workspace.registry.activeFor? id := by
    intro id
    rw [activeFor?_withTracer, htracer, hplaced.registry]
    rfl
  have hcopies : ∀ {id}, (placed.withTracer tracer session).copies.find? id =
      if id = source then some copy else workspace.copies.find? id := hplaced.copies _
  have hdocuments : (placed.withTracer tracer session).documents = placed.documents := rfl
  refine ⟨h.dated.withTracer hopen hplaced htracer, ?_, ?_, ?_⟩
  · intro other id hlisted
    rw [hcopies] at hlisted
    split at hlisted
    · cases hlisted
      exact hgiven
    · exact Nat.lt_of_lt_of_le (h.copy_given hlisted) hgrows.ages.nextIndex_le
  · intro other id later hlisted hlater
    rw [hcopies] at hlisted
    split at hlisted
    · next hsame =>
        cases hlisted
        rw [hdocuments, hfound, Option.some.injEq] at hlater
        rw [hsame, ← hlater, hof]
    · obtain ⟨old, hold, hkind⟩ := hgrows.exists_old (h.copy_given hlisted) hlater
      exact hkind ▸ h.copyOf_listed hlisted hold
  · intro id live original hlive horiginal
    rw [hactive] at hlive
    rw [reusable?_eq_some_iff]
    split at hlive
    · next hsame =>
        cases hlive
        rw [hsame, htracer]
        exact ⟨hcopies.trans (if_pos rfl), found, hfound⟩
    · next hne =>
        obtain ⟨before, hbefore, -⟩ :=
          hgrows.exists_old (h.dated.source_given hlive) horiginal
        obtain ⟨hlisted, copied, hcopied⟩ :=
          reusable?_eq_some_iff.1 (h.tracer_listed hlive hbefore)
        obtain ⟨later, hlater, -⟩ := hgrows.kept hcopied
        rw [hcopies]
        refine ⟨?_, later, hlater⟩
        split
        · next hsame =>
            exact absurd (hplaced.eq_copy (hsame ▸ hlisted) hcopied) hne
        · exact hlisted

theorem disposeAll (h : workspace.Listed) : workspace.disposeAll.Listed where
  dated := h.dated.step .disposeAll
  copy_given hlisted := by cases hlisted
  copyOf_listed hlisted := by cases hlisted
  tracer_listed hactive := by cases hactive

theorem onDocuments (h : workspace.Listed) {made : Store.Call}
    (hstays : workspace.strands (.onDocuments made) = false) :
    { workspace with documents := (workspace.documents.step made).2 }.Listed := by
  have hgrows : (∀ id, made ≠ .close id) →
      { workspace with documents := (workspace.documents.step made).2 }.Listed := by
    intro hkept
    have hyields := (h.dated.sound.step_yields made).grows h.dated.sound hkept
    exact h.of_grows (h.dated.step (.onDocuments made)) hyields rfl fun hactive =>
      ⟨_, hactive, rfl⟩
  cases made with
  | close id => exact h.close hstays
  | openPath path text => exact hgrows (by simp)
  | createCopy source text => exact hgrows (by simp)
  | replace id span text => exact hgrows (by simp)
  | apply id edit => exact hgrows (by simp)
  | setText id text => exact hgrows (by simp)
  | commit id => exact hgrows (by simp)

theorem effect (h : workspace.Listed) (heffect : workspace.Effect call changed)
    (hstays : workspace.strands call = false) : changed.Listed := by
  cases heffect with
  | same => exact h
  | opened path text => exact h.openPath path text
  | reopened id path text => exact (h.endSessionsOn id).openPath path text
  | closed hcall hopen hnocopy =>
      exact (h.close (h.serves_eq_false hopen hnocopy)).endSessionsOn _
  | closedCopy hcall hopen hcopy hidle =>
      subst hcall
      apply h.closeCopy hidle
      intro copy tracer hactive
      apply h.find?_source_eq_none hstays hopen hcopy hactive
      rintro rfl
      rw [hidle] at hactive
      cases hactive
  | closedSession hcall hopen hcopy =>
      subst hcall
      apply (h.withoutSession _).closeCopy ((activeFor?_withoutSession _).trans (if_pos rfl))
      intro copy tracer hactive
      rw [activeFor?_withoutSession] at hactive
      split at hactive
      · cases hactive
      · next hne => exact h.find?_source_eq_none hstays hopen hcopy hactive hne
  | edited hopen happly => exact h.withEdit hopen happly
  | editedCommitted hopen happly =>
      exact (h.withEdit hopen happly).withCommit find?_source_withEdit
  | committed hopen => exact h.withCommit hopen
  | started hopen hplaced => exact h.withTracer hopen hplaced rfl
  | disposed copy => exact h.withoutSession copy
  | disposedAll => exact h.disposeAll
  | onDocuments hcall =>
      subst hcall
      exact h.onDocuments hstays

/-- A call that strands no handle keeps the handles on the copies in use. -/
theorem step (h : workspace.Listed) (hstays : workspace.strands call = false) :
    (workspace.step call).2.Listed :=
  h.effect (step_effect workspace call) hstays

theorem after (h : workspace.Listed) (hstays : workspace.StrandsNone calls) :
    (workspace.after calls).Listed := by
  induction calls generalizing workspace with
  | nil => exact h
  | cons call rest ih => exact ih (h.step hstays.1) hstays.2

end Listed

end Retrace.Workspace
