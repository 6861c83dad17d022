import Retrace.Proofs.Completion.Coherence

/-!
# The changes that calls make

There are six kinds of change: something is taken away, a document is opened, a text that no
session follows is written anew, an edit, a commit, and the start of a completion.  Two of them
are events for the tracers, an edit and a start.

Three of the changes keep all links between the tables (`Keeps`), and the others are looked at
one by one, so that all six keep a workspace coherent (`Coherent.change`).
-/

namespace Retrace.Workspace

variable {workspace changed placed : Workspace} {source copy id : DocumentId}
  {tracer : Tracer} {document : Document} {text : String}

/-! ### Placed copies -/

namespace Placed

theorem eq_copy (hplaced : Placed workspace source text copy placed)
    (hlisted : workspace.copies.find? source = some id)
    (hopen : workspace.documents.find? id = some document) : id = copy := by
  rcases hplaced.documents with ⟨old, hcopy, -, -⟩ | ⟨hclosed, -, -⟩
  · rw [hlisted, Option.some.injEq] at hcopy
    exact hcopy
  · rw [hclosed id hlisted] at hopen
    cases hopen

/-- What was open under the number of the copy was a copy of this source already. -/
theorem copyOf_old (hplaced : Placed workspace source text copy placed)
    (h : workspace.Coherent) (hopen : workspace.documents.find? copy = some document) :
    document.copyOf = some source := by
  rcases hplaced.documents with ⟨old, hlisted, -, -⟩ | ⟨-, hnext, -⟩
  · exact h.copyOf_of_listed hlisted hopen
  · rw [hnext, h.sound.not_open_next] at hopen
    cases hopen

theorem ne_of_copyOf (hplaced : Placed workspace source text copy placed)
    (h : workspace.Coherent) (hopen : workspace.documents.find? id = some document)
    (hcopy : document.copyOf = none) : id ≠ copy := by
  intro heq
  subst heq
  rw [hplaced.copyOf_old h hopen] at hcopy
  cases hcopy

theorem sound (hplaced : Placed workspace source text copy placed) (h : workspace.Coherent) :
    placed.documents.Sound := by
  rcases hplaced.documents with ⟨old, -, hopen, heq⟩ | ⟨-, -, heq⟩
  · rw [heq]
    exact h.sound.put hopen ((h.sound.filed hopen).setText text) rfl
  · rw [heq]
    exact h.sound.add_copy source

/-- Only the copy is another document, and it has the text. -/
theorem exists_copy (hplaced : Placed workspace source text copy placed)
    (h : workspace.Coherent) :
    ∃ made : Document, made.text = text ∧ made.copyOf = some source ∧
      ∀ id, placed.documents.find? id =
        if id = copy then some made else workspace.documents.find? id := by
  rcases hplaced.documents with ⟨old, -, hopen, heq⟩ | ⟨-, hnext, heq⟩
  · have hcopy := hplaced.copyOf_old h hopen
    refine ⟨old.setText text, rfl, hcopy, ?_⟩
    intro id
    rw [heq, Store.find?_put]
  · refine ⟨.fresh copy none text (some source), rfl, rfl, ?_⟩
    intro id
    rw [heq, Store.find?_add, ← hnext]

/-- A document that is no copy stays where it is. -/
theorem find?_eq_some (hplaced : Placed workspace source text copy placed)
    (h : workspace.Coherent) (hopen : workspace.documents.find? id = some document)
    (hcopy : document.copyOf = none) : placed.documents.find? id = some document := by
  obtain ⟨made, -, -, hfind⟩ := hplaced.exists_copy h
  rw [hfind, if_neg (hplaced.ne_of_copyOf h hopen hcopy), hopen]

theorem copy_open (hplaced : Placed workspace source text copy placed) (h : workspace.Coherent)
    {other listed : DocumentId} (hlisted : placed.copies.find? other = some listed) :
    ∃ document, placed.documents.find? listed = some document ∧ document.copyOf = some other := by
  obtain ⟨made, -, hmade, hfind⟩ := hplaced.exists_copy h
  rw [hplaced.copies] at hlisted
  split at hlisted
  · next heq =>
      cases hlisted
      exact ⟨made, (hfind copy).trans (if_pos rfl), hmade.trans (heq ▸ rfl)⟩
  · next hne =>
      obtain ⟨old, hold, holdCopy⟩ := h.copy_open hlisted
      have hneCopy : listed ≠ copy := by
        intro heq
        rw [heq] at hold
        rw [hplaced.copyOf_old h hold, Option.some.injEq] at holdCopy
        exact hne holdCopy.symm
      exact ⟨old, ((hfind listed).trans (if_neg hneCopy)).trans hold, holdCopy⟩

theorem copy_listed (hplaced : Placed workspace source text copy placed) (h : workspace.Coherent)
    {other : DocumentId} (hopen : placed.documents.find? id = some document)
    (hof : document.copyOf = some other) : placed.copies.find? other = some id := by
  obtain ⟨made, -, hmade, hfind⟩ := hplaced.exists_copy h
  rw [hfind] at hopen
  rw [hplaced.copies]
  split at hopen
  · next heq =>
      cases hopen
      rw [hmade, Option.some.injEq] at hof
      rw [if_pos hof.symm, heq]
  · next hne =>
      have hother := h.copy_listed hopen hof
      rw [if_neg, hother]
      intro heq
      exact hne (hplaced.eq_copy (heq ▸ hother) hopen)

theorem source_open (hplaced : Placed workspace source text copy placed) (h : workspace.Coherent)
    {other : DocumentId} {found : Document}
    (hopen : workspace.documents.find? source = some document) (hcopy : document.copyOf = none)
    (hfound : placed.documents.find? id = some found) (hof : found.copyOf = some other) :
    ∃ original, placed.documents.find? other = some original ∧ original.copyOf = none := by
  obtain ⟨made, -, hmade, hfind⟩ := hplaced.exists_copy h
  rw [hfind] at hfound
  split at hfound
  · cases hfound
    rw [hmade, Option.some.injEq] at hof
    exact ⟨document, hplaced.find?_eq_some h (hof ▸ hopen) hcopy, hcopy⟩
  · obtain ⟨original, horiginal, hnocopy⟩ := h.source_open hfound hof
    exact ⟨original, hplaced.find?_eq_some h horiginal hnocopy, hnocopy⟩

end Placed

/-! ### Changes -/

/-- What a change means for the tracers: an edit of a source, or a new tracer and the text of its
copy. -/
inductive Event
  | edited (source : DocumentId) (edit : Edit)
  | started (tracer : Tracer) (text : String)

/-- One change of a coherent workspace, with the event that it is. -/
inductive Change (workspace : Workspace) : Option Event → Workspace → Prop
  | shrunk {smaller : Workspace} (hshrinks : Shrinks workspace smaller) :
      Change workspace none smaller
  | opened {path text : String} (hfree : workspace.documents.idForPath? path = none) :
      Change workspace none
        { workspace with documents := (workspace.documents.openFresh path text).2 }
  | rewritten {id : DocumentId} {document : Document} {text : String}
      (hopen : workspace.documents.find? id = some document) (hcopy : document.copyOf = none)
      (hidle : ∀ {copy tracer}, workspace.registry.activeFor? copy = some tracer →
        tracer.source ≠ id) :
      Change workspace none
        { workspace with documents := workspace.documents.put id (document.setText text) }
  | edited {source : DocumentId} {edit : Edit} {document edited : Document}
      (hopen : workspace.documents.find? source = some document) (hcopy : document.copyOf = none)
      (happly : document.apply edit = .ok edited) :
      Change workspace (some (.edited source edit)) (workspace.withEdit source edit edited)
  | committed {source : DocumentId} {document : Document}
      (hopen : workspace.documents.find? source = some document) :
      Change workspace none (workspace.withCommit source document)
  | started {source copy : DocumentId} {span : Span} {parts : Text.Cut} {replacement : String}
      {document : Document} {placed : Workspace} {tracer : Tracer}
      (hopen : workspace.documents.find? source = some document) (hcopy : document.copyOf = none)
      (hcut : document.cut span = .ok parts)
      (hplaced : Placed workspace source (parts.replace replacement) copy placed)
      (htracer : tracer = .start ⟨workspace.registry.lastGeneration + 1⟩ copy source
        ⟨span.start, parts.inside, replacement⟩ document.committed) :
      Change workspace (some (.started tracer (parts.replace replacement)))
        (placed.withTracer tracer (.start source span document.lines))

/-- The links between the tables are as they were: the same documents are open and are copies
of the same sources, and the same tracers and sessions belong to the same copies. -/
structure Keeps (workspace changed : Workspace) : Prop where
  sound : changed.documents.Sound
  copies : changed.copies = workspace.copies
  lastGeneration : changed.registry.lastGeneration = workspace.registry.lastGeneration
  document : ∀ id, (changed.documents.find? id).map Document.copyOf =
    (workspace.documents.find? id).map Document.copyOf
  tracer : ∀ copy, (changed.registry.activeFor? copy).map (fun t => (t.handle, t.source)) =
    (workspace.registry.activeFor? copy).map (fun t => (t.handle, t.source))
  session : ∀ copy, (changed.sessions.find? copy).map Session.source =
    (workspace.sessions.find? copy).map Session.source
  baseline_le : ∀ {copy tracer document}, changed.registry.activeFor? copy = some tracer →
    changed.documents.find? tracer.source = some document → tracer.baseline ≤ document.committed

namespace Keeps

theorem open_iff (h : Keeps workspace changed) {of : Option DocumentId} :
    (∃ document, changed.documents.find? id = some document ∧ document.copyOf = of) ↔
      ∃ document, workspace.documents.find? id = some document ∧ document.copyOf = of := by
  rw [← Option.map_eq_some_iff, ← Option.map_eq_some_iff, h.document id]

theorem exists_tracer (h : Keeps workspace changed)
    (hactive : changed.registry.activeFor? copy = some tracer) :
    ∃ old, workspace.registry.activeFor? copy = some old ∧ old.handle = tracer.handle ∧
      old.source = tracer.source := by
  have hmap := h.tracer copy
  rw [hactive] at hmap
  obtain ⟨old, hold, heq⟩ := Option.map_eq_some_iff.1 hmap.symm
  rw [Prod.mk.injEq] at heq
  exact ⟨old, hold, heq⟩

theorem coherent (h : Keeps workspace changed) (hcoherent : workspace.Coherent) :
    changed.Coherent where
  sound := h.sound
  session_source copy := by
    have hmap := congrArg (Option.map Prod.snd) (h.tracer copy)
    simp only [Option.map_map, Function.comp_def] at hmap
    rw [h.session copy, hcoherent.session_source copy]
    exact hmap.symm
  tracer_copy := by
    intro copy tracer hactive
    obtain ⟨old, hold, hhandle, -⟩ := h.exists_tracer hactive
    exact (congrArg Handle.copy hhandle).symm.trans (hcoherent.tracer_copy hold)
  tracer_open := by
    intro copy tracer hactive
    obtain ⟨old, hold, -, hsource⟩ := h.exists_tracer hactive
    exact h.open_iff.2 (hsource ▸ hcoherent.tracer_open hold)
  copy_open := by
    intro source copy hlisted
    rw [h.copies] at hlisted
    exact h.open_iff.2 (hcoherent.copy_open hlisted)
  copy_listed := by
    intro copy source document hopen hcopy
    obtain ⟨old, hold, holdCopy⟩ := h.open_iff.1 ⟨document, hopen, hcopy⟩
    rw [h.copies]
    exact hcoherent.copy_listed hold holdCopy
  source_open := by
    intro copy source document hopen hcopy
    obtain ⟨old, hold, holdCopy⟩ := h.open_iff.1 ⟨document, hopen, hcopy⟩
    exact h.open_iff.2 (hcoherent.source_open hold holdCopy)
  generation_le := by
    intro copy tracer hactive
    obtain ⟨old, hold, hhandle, -⟩ := h.exists_tracer hactive
    rw [h.lastGeneration, ← show old.id = tracer.id from congrArg Handle.generation hhandle]
    exact hcoherent.generation_le hold
  generation_inj := by
    intro copy other tracer tracer' hactive hactive' hid
    obtain ⟨old, hold, hhandle, -⟩ := h.exists_tracer hactive
    obtain ⟨old', hold', hhandle', -⟩ := h.exists_tracer hactive'
    refine hcoherent.generation_inj hold hold' ?_
    exact (congrArg Handle.generation hhandle).trans
      (hid.trans (congrArg Handle.generation hhandle').symm)
  baseline_le := h.baseline_le

end Keeps

/-! ### Changes keep a workspace coherent -/

/-- A document that keeps its name, its path and its source is put in its place. -/
theorem Coherent.map_copyOf_put (hopen : workspace.documents.find? id = some document)
    {new : Document} (hcopy : new.copyOf = document.copyOf) (other : DocumentId) :
    ((workspace.documents.put id new).find? other).map Document.copyOf =
      (workspace.documents.find? other).map Document.copyOf := by
  rw [Store.find?_put]
  split
  · next heq => simp [heq, hopen, hcopy]
  · rfl

theorem Coherent.keeps_setText (h : workspace.Coherent)
    (hopen : workspace.documents.find? id = some document) (text : String) :
    Keeps workspace
      { workspace with documents := workspace.documents.put id (document.setText text) } where
  sound := h.sound.put hopen ((h.sound.filed hopen).setText text) rfl
  copies := rfl
  lastGeneration := rfl
  document := map_copyOf_put hopen rfl
  tracer _ := rfl
  session _ := rfl
  baseline_le := by
    intro copy tracer found hactive hfind
    rw [Store.find?_put] at hfind
    split at hfind
    · next heq =>
        have hle : tracer.baseline ≤ document.committed :=
          h.baseline_le hactive (heq ▸ hopen)
        cases hfind
        exact hle
    · exact h.baseline_le hactive hfind

theorem Coherent.keeps_withEdit (h : workspace.Coherent) {edit : Edit} {edited : Document}
    (hopen : workspace.documents.find? source = some document)
    (happly : document.apply edit = .ok edited) :
    Keeps workspace (workspace.withEdit source edit edited) := by
  obtain ⟨-, text, -, rfl⟩ := Document.apply_eq_ok_iff.1 happly
  refine
    { sound := (h.keeps_setText hopen text).sound, copies := rfl, lastGeneration := rfl,
      document := map_copyOf_put hopen rfl, tracer := ?_, session := ?_, baseline_le := ?_ }
  · intro copy
    rw [activeFor?_withEdit, Option.map_map]
    congr 1
    funext tracer
    simp only [Function.comp_apply]
    split <;> rfl
  · intro copy
    rcases Table.find?_sweep workspace.sessions (Session.carry source edit) copy with heq | heq
    · exact congrArg (Option.map Session.source) heq
    · refine (congrArg (Option.map Session.source) heq).trans ?_
      rw [Option.map_map]
      congr 1
      funext session
      simp only [Function.comp_apply, Session.carry]
      split <;> rfl
  · intro copy tracer found hactive hfind
    rw [activeFor?_withEdit] at hactive
    obtain ⟨old, hold, rfl⟩ := Option.map_eq_some_iff.1 hactive
    -- staging moves no baseline
    have hsame : ∀ t : Tracer, (if t.source = source then t.record edit else t).baseline =
        t.baseline ∧ (if t.source = source then t.record edit else t).source = t.source := by
      intro t
      split <;> exact ⟨rfl, rfl⟩
    rw [(hsame old).2] at hfind
    rw [(hsame old).1]
    exact (h.keeps_setText hopen text).baseline_le hold hfind

theorem Coherent.keeps_withCommit (h : workspace.Coherent)
    (hopen : workspace.documents.find? source = some document) :
    Keeps workspace (workspace.withCommit source document) := by
  have hfiled := h.sound.filed hopen
  refine
    { sound := h.sound.put hopen hfiled.commit rfl, copies := rfl, lastGeneration := rfl,
      document := map_copyOf_put hopen rfl, tracer := ?_, session := ?_, baseline_le := ?_ }
  · intro copy
    rw [activeFor?_withCommit, Option.map_map]
    congr 1
    funext tracer
    have hgrows := Tracer.Grows.mergeStaged tracer document.modified workspace.policy
    simp only [Function.comp_apply]
    split
    · rw [hgrows.handle, hgrows.source]
    · rfl
  · intro copy
    obtain ⟨frame, heq⟩ := sessions_withCommit workspace source document copy
    rw [heq, Option.map_map]
    rfl
  · intro copy tracer found hactive hfind
    rw [activeFor?_withCommit] at hactive
    obtain ⟨old, hold, rfl⟩ := Option.map_eq_some_iff.1 hactive
    by_cases hsource : old.source = source
    · -- the merge takes the new stamp, or the old baseline is not above the old stamp
      have hle : old.baseline ≤ document.modified :=
        Nat.le_trans (h.baseline_le hold (hsource ▸ hopen)) hfiled.committed_le
      simp only [if_pos hsource, Tracer.mergeStaged] at hfind ⊢
      split at hfind <;> rw [find?_documents_withCommit, if_pos hsource] at hfind <;> cases hfind
      · next hmerge =>
          rw [if_pos hmerge]
          exact Nat.le_refl _
      · next hmerge =>
          rw [if_neg hmerge]
          exact hle
    · rw [if_neg hsource] at hfind ⊢
      rw [find?_documents_withCommit, if_neg hsource] at hfind
      exact h.baseline_le hold hfind

theorem Coherent.opened (h : workspace.Coherent) {path : String}
    (hfree : workspace.documents.idForPath? path = none) :
    Coherent { workspace with documents := (workspace.documents.openFresh path text).2 } := by
  have hold : ∀ {id document}, workspace.documents.find? id = some document →
      (workspace.documents.openFresh path text).2.find? id = some document := by
    intro id document hopen
    rw [Store.find?_openFresh, if_neg (h.sound.ne_next hopen), hopen]
  -- the new document is no copy, so a copy that is open now was open before
  have hcopies : ∀ {id source document},
      (workspace.documents.openFresh path text).2.find? id = some document →
        document.copyOf = some source → workspace.documents.find? id = some document := by
    intro id source document hopen hcopy
    rw [Store.find?_openFresh] at hopen
    split at hopen
    · cases hopen
      cases hcopy
    · exact hopen
  refine
    { sound := h.sound.openFresh hfree, session_source := h.session_source,
      tracer_copy := h.tracer_copy, tracer_open := ?_, copy_open := ?_, copy_listed := ?_,
      source_open := ?_, generation_le := h.generation_le, generation_inj := h.generation_inj,
      baseline_le := ?_ }
  · intro copy tracer hactive
    obtain ⟨document, hopen, hcopy⟩ := h.tracer_open hactive
    exact ⟨document, hold hopen, hcopy⟩
  · intro source copy hlisted
    obtain ⟨document, hopen, hcopy⟩ := h.copy_open hlisted
    exact ⟨document, hold hopen, hcopy⟩
  · intro copy source document hopen hcopy
    exact h.copy_listed (hcopies hopen hcopy) hcopy
  · intro copy source document hopen hcopy
    obtain ⟨original, horiginal, hnocopy⟩ := h.source_open (hcopies hopen hcopy) hcopy
    exact ⟨original, hold horiginal, hnocopy⟩
  · intro copy tracer document hactive hopen
    obtain ⟨original, horiginal, -⟩ := h.tracer_source_open hactive
    have hsame := hold horiginal
    rw [hopen, Option.some.injEq] at hsame
    exact hsame ▸ h.baseline_le hactive horiginal

theorem Coherent.started (h : workspace.Coherent) {creation : Edit} {session : Session}
    (hopen : workspace.documents.find? source = some document) (hcopy : document.copyOf = none)
    (hplaced : Placed workspace source text copy placed)
    (htracer : tracer = .start ⟨workspace.registry.lastGeneration + 1⟩ copy source creation
      document.committed)
    (hsession : session.source = source) : (placed.withTracer tracer session).Coherent := by
  obtain ⟨made, -, hmade, hfind⟩ := hplaced.exists_copy h
  have hactive : ∀ id, (placed.withTracer tracer session).registry.activeFor? id =
      if id = copy then some tracer else workspace.registry.activeFor? id := by
    intro id
    rw [activeFor?_withTracer, hplaced.registry, htracer]
    rfl
  have hsessions : ∀ id, (placed.withTracer tracer session).sessions.find? id =
      if id = copy then some session else workspace.sessions.find? id := by
    intro id
    rw [sessions_withTracer, hplaced.sessions, htracer]
    rfl
  have hfresh : ∀ {id old}, workspace.registry.activeFor? id = some old → old.id ≠ tracer.id := by
    intro id old hold heq
    have hle := h.generation_le hold
    rw [heq, htracer] at hle
    exact absurd hle (Nat.not_succ_le_self _)
  have hlast : (placed.withTracer tracer session).registry.lastGeneration =
      workspace.registry.lastGeneration + 1 :=
    congrArg (fun registry : Registry => registry.lastGeneration + 1) hplaced.registry
  refine
    { sound := hplaced.sound h, session_source := ?_, tracer_copy := ?_, tracer_open := ?_,
      copy_open := hplaced.copy_open h, copy_listed := hplaced.copy_listed h,
      source_open := hplaced.source_open h hopen hcopy, generation_le := ?_,
      generation_inj := ?_, baseline_le := ?_ }
  · intro id
    rw [hactive, hsessions]
    split
    · simp [hsession, htracer, Tracer.start]
    · exact h.session_source id
  · intro id found hfound
    rw [hactive] at hfound
    split at hfound
    · next heq =>
        cases hfound
        rw [htracer, heq]
        rfl
    · exact h.tracer_copy hfound
  · intro id found hfound
    rw [hactive] at hfound
    split at hfound
    · next heq =>
        cases hfound
        refine ⟨made, (hfind id).trans (if_pos heq), ?_⟩
        rw [hmade, htracer]
        rfl
    · next hne =>
        obtain ⟨old, hold, holdCopy⟩ := h.tracer_open hfound
        exact ⟨old, ((hfind id).trans (if_neg hne)).trans hold, holdCopy⟩
  · intro id found hfound
    rw [hlast]
    rw [hactive] at hfound
    split at hfound
    · cases hfound
      rw [htracer]
      exact Nat.le_refl _
    · exact Nat.le_succ_of_le (h.generation_le hfound)
  · intro id other found found' hfound hfound' hid
    rw [hactive] at hfound hfound'
    split at hfound <;> split at hfound'
    · next heq heq' => exact heq.trans heq'.symm
    · cases hfound
      exact absurd hid.symm (hfresh hfound')
    · cases hfound'
      exact absurd hid (hfresh hfound)
    · exact h.generation_inj hfound hfound' hid
  · intro id found original hfound horiginal
    have hview : placed.documents.find? found.source = some original := horiginal
    rw [hactive] at hfound
    split at hfound
    · cases hfound
      have hsource : tracer.source = source := by
        rw [htracer]
        rfl
      rw [hsource, hplaced.find?_eq_some h hopen hcopy, Option.some.injEq] at hview
      rw [← hview, htracer]
      exact Nat.le_refl _
    · obtain ⟨old, hold, hnocopy⟩ := h.tracer_source_open hfound
      rw [hplaced.find?_eq_some h hold hnocopy, ← hold] at hview
      exact h.baseline_le hfound hview

theorem Coherent.change (h : workspace.Coherent) {event : Option Event}
    (hchange : Change workspace event changed) : changed.Coherent := by
  cases hchange with
  | shrunk hshrinks => exact hshrinks.coherent h
  | opened hfree => exact h.opened hfree
  | rewritten hopen hcopy hidle => exact (h.keeps_setText hopen _).coherent h
  | edited hopen hcopy happly => exact (h.keeps_withEdit hopen happly).coherent h
  | committed hopen => exact (h.keeps_withCommit hopen).coherent h
  | started hopen hcopy hcut hplaced htracer => exact h.started hopen hcopy hplaced htracer rfl

/-- The policy is chosen once. -/
theorem Change.policy_eq {event : Option Event} (hchange : Change workspace event changed) :
    changed.policy = workspace.policy := by
  cases hchange with
  | shrunk hshrinks => exact hshrinks.policy
  | opened hfree => rfl
  | rewritten hopen hcopy hidle => rfl
  | edited hopen hcopy happly => rfl
  | committed hopen => rfl
  | started hopen hcopy hcut hplaced htracer => exact hplaced.policy

/-- Numbers of tracers are only given out, never taken back. -/
theorem Change.lastGeneration_le {event : Option Event} (hchange : Change workspace event changed) :
    workspace.registry.lastGeneration ≤ changed.registry.lastGeneration := by
  cases hchange with
  | shrunk hshrinks => exact Nat.le_of_eq hshrinks.lastGeneration.symm
  | opened hfree => exact Nat.le_refl _
  | rewritten hopen hcopy hidle => exact Nat.le_refl _
  | edited hopen hcopy happly => exact Nat.le_refl _
  | committed hopen => exact Nat.le_refl _
  | started hopen hcopy hcut hplaced htracer =>
      rw [← hplaced.registry]
      exact Nat.le_succ _

theorem Change.issued (hchange : Change workspace (some (.started tracer text)) changed) :
    tracer.id.number ≤ changed.registry.lastGeneration := by
  cases hchange with
  | started hopen hcopy hcut hplaced htracer =>
      rw [htracer, ← hplaced.registry]
      exact Nat.le_refl _

end Retrace.Workspace
