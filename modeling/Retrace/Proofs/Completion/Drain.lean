import Mathlib.Algebra.GroupWithZero.Nat
import Retrace.Proofs.Completion.Coherence
import Retrace.Proofs.Completion.Effect
import Retrace.Proofs.Document.Age
import Retrace.Proofs.Table.Map
import Retrace.Proofs.Tracer.Drain

/-!
# What a commit leaves staged

A commit empties a tracer if its baseline is below the stamp of the last change whenever something
is staged.  This holds in every state that calls reach, also if some of them go to the documents
past the workspace (`Dated.after`): such calls may leave copies and tracers behind, but a stamp
never goes back and no number is given out again (`ages_step`), and nobody else touches what is
staged.  So, with the policies that the settings offer, a commit moves everything that is staged
into the logs, and with any policy a second commit right after it does nothing (`commit_drains`).
-/

namespace Retrace.Workspace

variable {workspace changed placed : Workspace} {source copy id : DocumentId} {document : Document}
  {tracer : Tracer} {text : String} {call : Call}

/-! ### Calls make the documents older -/

theorem ages_foldl_close (ids : List DocumentId) {store : Store} (h : store.Sound) :
    store.Ages (ids.foldl (fun store copy => (store.close copy).2) store) := by
  induction ids generalizing store with
  | nil => exact h.ages_refl
  | cons head rest ih => exact (h.ages_close head).trans (ih (h.close head))

theorem ages_endSessionsOn (h : workspace.documents.Sound) (source : DocumentId) :
    workspace.documents.Ages (workspace.endSessionsOn source).documents := by
  rw [documents_endSessionsOn]
  split
  · exact h.ages_refl
  · exact h.ages_close _

theorem Placed.ages (hplaced : Placed workspace source text copy placed)
    (h : workspace.documents.Sound) : workspace.documents.Ages placed.documents := by
  rcases hplaced.documents with ⟨old, -, hopen, heq⟩ | ⟨-, -, heq⟩
  · rw [heq]
    exact h.ages_setText hopen text
  · rw [heq]
    exact h.ages_add_copy source text

theorem Effect.ages (heffect : workspace.Effect call changed) (h : workspace.documents.Sound) :
    workspace.documents.Ages changed.documents := by
  cases heffect with
  | same => exact h.ages_refl
  | opened path text => exact h.ages_openPath path text
  | reopened id path text =>
      have hended := ages_endSessionsOn h id
      exact hended.trans (hended.sound.ages_openPath path text)
  | @closed id document hcall hopen hnocopy =>
      let closed : Workspace := { workspace with documents := (workspace.documents.close id).2 }
      have hclosed : workspace.documents.Ages closed.documents := h.ages_close id
      exact hclosed.trans (ages_endSessionsOn hclosed.sound id)
  | closedCopy hcall hopen hcopy hidle => exact h.ages_close _
  | closedSession hcall hopen hcopy => exact h.ages_close _
  | edited hopen happly =>
      obtain ⟨-, text, -, rfl⟩ := Document.apply_eq_ok_iff.1 happly
      exact h.ages_setText hopen text
  | editedCommitted hopen happly =>
      obtain ⟨-, text, -, rfl⟩ := Document.apply_eq_ok_iff.1 happly
      have hedited := h.ages_setText hopen text
      exact hedited.trans (hedited.sound.ages_commit ((Store.find?_put ..).trans (if_pos rfl)))
  | committed hopen => exact h.ages_commit hopen
  | started hopen hplaced => exact hplaced.ages h
  | disposed copy => exact h.ages_refl
  | disposedAll => exact ages_foldl_close _ h
  | @onDocuments made hcall => exact h.ages_step made

/-- Every call makes the documents older, on the workspace or past it. -/
theorem ages_step (h : workspace.documents.Sound) (call : Call) :
    workspace.documents.Ages (workspace.step call).2.documents :=
  (step_effect workspace call).ages h

theorem ages_after (h : workspace.documents.Sound) (calls : List Call) :
    workspace.documents.Ages (workspace.after calls).documents := by
  induction calls generalizing workspace with
  | nil => exact h.ages_refl
  | cons call rest ih =>
      have hstep := ages_step h call
      exact hstep.trans (ih hstep.sound)

/-! ### Tracers and the stamps of their sources -/

/-- The documents are sound, and every tracer is dated by the stamp of its source, if this is open.
The number of the source was given out, so it is not opened again under another text. -/
structure Dated (workspace : Workspace) : Prop where
  sound : workspace.documents.Sound
  source_given : ∀ {copy tracer}, workspace.registry.activeFor? copy = some tracer →
    tracer.source.index < workspace.documents.nextIndex
  dated : ∀ {copy tracer document}, workspace.registry.activeFor? copy = some tracer →
    workspace.documents.find? tracer.source = some document → tracer.DatedBy document.modified

theorem dated_initial (config : Config) (policy : CommitPolicy) :
    (initial config policy).Dated where
  sound := Store.sound_empty
  source_given h := by cases h
  dated h := by cases h

namespace Dated

/-- The documents get older, and tracers may go. -/
theorem of_ages (h : workspace.Dated) (hages : workspace.documents.Ages changed.documents)
    (hactive : ∀ {copy tracer}, changed.registry.activeFor? copy = some tracer →
      workspace.registry.activeFor? copy = some tracer) : changed.Dated where
  sound := hages.sound
  source_given hlive := Nat.lt_of_lt_of_le (h.source_given (hactive hlive)) hages.nextIndex_le
  dated := by
    intro copy tracer document hlive hopen
    obtain ⟨old, hold, hle⟩ := hages.exists_old (h.source_given (hactive hlive)) hopen
    exact (h.dated (hactive hlive) hold).mono hle

/-- One document is replaced by a later state of itself, and its tracers change with it. -/
theorem of_put (h : workspace.Dated) {later : Document} {f : Tracer → Tracer}
    (hopen : workspace.documents.find? source = some document)
    (hages : workspace.documents.Ages changed.documents)
    (hdocuments : changed.documents = workspace.documents.put source later)
    (hactive : ∀ copy, changed.registry.activeFor? copy =
      (workspace.registry.activeFor? copy).map fun tracer =>
        if tracer.source = source then f tracer else tracer)
    (hsource : ∀ tracer, (f tracer).source = tracer.source)
    (hdated : ∀ tracer : Tracer, tracer.DatedBy document.modified →
      (f tracer).DatedBy later.modified) : changed.Dated := by
  have hkept : ∀ tracer : Tracer,
      (if tracer.source = source then f tracer else tracer).source = tracer.source := by
    intro tracer
    split
    · exact hsource tracer
    · rfl
  refine ⟨hages.sound, ?_, ?_⟩
  · intro copy tracer hlive
    rw [hactive] at hlive
    obtain ⟨old, hold, rfl⟩ := Option.map_eq_some_iff.1 hlive
    rw [hkept]
    exact Nat.lt_of_lt_of_le (h.source_given hold) hages.nextIndex_le
  · intro copy tracer found hlive hfound
    rw [hactive] at hlive
    obtain ⟨old, hold, rfl⟩ := Option.map_eq_some_iff.1 hlive
    rw [hkept, hdocuments, Store.find?_put] at hfound
    by_cases hsame : old.source = source
    · rw [if_pos hsame] at hfound ⊢
      cases hfound
      exact hdated old (h.dated hold (hsame ▸ hopen))
    · rw [if_neg hsame] at hfound ⊢
      exact h.dated hold hfound

theorem withEdit (h : workspace.Dated) {edit : Edit} {edited : Document}
    (hopen : workspace.documents.find? source = some document)
    (happly : document.apply edit = .ok edited) :
    (workspace.withEdit source edit edited).Dated := by
  obtain ⟨-, text, -, rfl⟩ := Document.apply_eq_ok_iff.1 happly
  exact h.of_put hopen (h.sound.ages_setText hopen text) rfl (fun _ => activeFor?_withEdit)
    (fun _ => rfl) fun _ hdated => hdated.record edit

theorem withCommit (h : workspace.Dated)
    (hopen : workspace.documents.find? source = some document) :
    (workspace.withCommit source document).Dated :=
  h.of_put hopen (h.sound.ages_commit hopen) rfl (fun _ => activeFor?_withCommit)
    (fun _ => Tracer.source_mergeStaged) fun _ hdated => hdated.mergeStaged workspace.policy

/-- A new tracer starts with the committed stamp of its source, and nothing is staged. -/
theorem withTracer (h : workspace.Dated) {creation : Edit} {session : Session}
    (hopen : workspace.documents.find? source = some document)
    (hplaced : Placed workspace source text copy placed)
    (htracer : tracer = .start ⟨workspace.registry.lastGeneration + 1⟩ copy source creation
      document.committed) : (placed.withTracer tracer session).Dated := by
  have hages : workspace.documents.Ages placed.documents := hplaced.ages h.sound
  have hgiven : source.index < workspace.documents.nextIndex := h.sound.index_lt hopen
  have hactive : ∀ {id}, (placed.withTracer tracer session).registry.activeFor? id =
      if id = tracer.copy then some tracer else workspace.registry.activeFor? id := by
    intro id
    rw [activeFor?_withTracer, hplaced.registry]
  refine ⟨hages.sound, ?_, ?_⟩
  · intro id found hfound
    rw [hactive] at hfound
    split at hfound
    · cases hfound
      rw [htracer]
      exact Nat.lt_of_lt_of_le hgiven hages.nextIndex_le
    · exact Nat.lt_of_lt_of_le (h.source_given hfound) hages.nextIndex_le
  · intro id found later hfound hlater
    rw [hactive] at hfound
    split at hfound
    · cases hfound
      rw [htracer] at hlater ⊢
      obtain ⟨old, hold, hle⟩ := hages.exists_old hgiven hlater
      rw [hopen, Option.some.injEq] at hold
      subst hold
      exact .start (Nat.le_trans (h.sound.filed hopen).committed_le hle)
    · obtain ⟨old, hold, hle⟩ := hages.exists_old (h.source_given hfound) hlater
      exact (h.dated hfound hold).mono hle

end Dated

/-! ### Calls keep the tracers dated -/

namespace Dated

theorem endSessionsOn (h : workspace.Dated) (source : DocumentId) :
    (workspace.endSessionsOn source).Dated := by
  refine h.of_ages (ages_endSessionsOn h.sound source) ?_
  intro copy tracer hactive
  rw [activeFor?_endSessionsOn, Option.filter_eq_some_iff] at hactive
  exact hactive.1

theorem withoutSession (h : workspace.Dated) (copy : DocumentId) :
    (workspace.withoutSession copy).Dated := by
  refine h.of_ages h.sound.ages_refl ?_
  intro id tracer hactive
  rw [activeFor?_withoutSession] at hactive
  split at hactive
  · cases hactive
  · exact hactive

theorem close (h : workspace.Dated) (id : DocumentId) (copies : Table DocumentId DocumentId) :
    { workspace with
      documents := (workspace.documents.close id).2
      copies := copies }.Dated :=
  h.of_ages (h.sound.ages_close id) fun hactive => hactive

theorem openPath (h : workspace.Dated) (path text : String) :
    { workspace with documents := (workspace.documents.openPath path text).2 }.Dated :=
  h.of_ages (h.sound.ages_openPath path text) fun hactive => hactive

theorem effect (h : workspace.Dated) (heffect : workspace.Effect call changed) : changed.Dated := by
  cases heffect with
  | same => exact h
  | opened path text => exact h.openPath path text
  | reopened id path text => exact (h.endSessionsOn id).openPath path text
  | @closed id document hcall hopen hnocopy =>
      exact (h.close id workspace.copies).endSessionsOn id
  | closedCopy hcall hopen hcopy hidle => exact h.close _ _
  | closedSession hcall hopen hcopy => exact (h.close _ _).withoutSession _
  | edited hopen happly => exact h.withEdit hopen happly
  | editedCommitted hopen happly =>
      exact (h.withEdit hopen happly).withCommit find?_source_withEdit
  | committed hopen => exact h.withCommit hopen
  | started hopen hplaced => exact h.withTracer hopen hplaced rfl
  | disposed copy => exact h.withoutSession copy
  | disposedAll => exact h.of_ages (ages_foldl_close _ h.sound) fun hactive => by cases hactive
  | @onDocuments made hcall => exact h.of_ages (h.sound.ages_step made) fun hactive => hactive

/-- Every call keeps the tracers dated, on the workspace or past it. -/
theorem step (h : workspace.Dated) (call : Call) : (workspace.step call).2.Dated :=
  h.effect (step_effect workspace call)

theorem after (h : workspace.Dated) (calls : List Call) : (workspace.after calls).Dated := by
  induction calls generalizing workspace with
  | nil => exact h
  | cons call rest ih => exact ih (h.step call)

end Dated

theorem policy_endSessionsOn : (workspace.endSessionsOn source).policy = workspace.policy := by
  unfold endSessionsOn
  split <;> rfl

theorem Effect.policy_eq (heffect : workspace.Effect call changed) :
    changed.policy = workspace.policy := by
  cases heffect with
  | same => rfl
  | opened path text => rfl
  | reopened id path text => exact policy_endSessionsOn
  | closed hcall hopen hnocopy => exact policy_endSessionsOn
  | closedCopy hcall hopen hcopy hidle => rfl
  | closedSession hcall hopen hcopy => rfl
  | edited hopen happly => rfl
  | editedCommitted hopen happly => rfl
  | committed hopen => rfl
  | started hopen hplaced => exact hplaced.policy
  | disposed copy => rfl
  | disposedAll => rfl
  | onDocuments hcall => rfl

/-- The policy is chosen once, whatever calls follow. -/
theorem policy_step (workspace : Workspace) (call : Call) :
    (workspace.step call).2.policy = workspace.policy :=
  (step_effect workspace call).policy_eq

theorem policy_after (workspace : Workspace) (calls : List Call) :
    (workspace.after calls).policy = workspace.policy := by
  induction calls generalizing workspace with
  | nil => rfl
  | cons call rest ih => exact (ih (workspace.step call).2).trans (workspace.policy_step call)

/-! ### Commits -/

theorem commit_of_open (hopen : workspace.documents.find? source = some document) :
    workspace.commit source =
      (.ok ((workspace.registry.tracersTo source).map fun tracer =>
          (tracer.mergeStaged document.modified workspace.policy).1).sum,
        workspace.withCommit source document) := by
  simp only [commit, Store.get, hopen, withCommit]
  simp only [Registry.mergeStaged, List.foldl_map, List.sum_eq_foldl]
  rfl

/-- What a commit of a source makes of a session: new lines, if its tracer is to the source and has
nothing staged. -/
def refreshed (registry : Registry) (source : DocumentId) (frame : Lines) (copy : DocumentId)
    (session : Session) : Session :=
  match registry.activeFor? copy with
  | none => session
  | some tracer =>
      if tracer.source = source ∧ tracer.staged = [] then { session with frame } else session

theorem refreshed_refreshed (registry : Registry) (source : DocumentId) (frame : Lines)
    (copy : DocumentId) (session : Session) :
    refreshed registry source frame copy (refreshed registry source frame copy session) =
      refreshed registry source frame copy session := by
  unfold refreshed
  rcases registry.activeFor? copy with _ | tracer
  · rfl
  · by_cases hto : tracer.source = source ∧ tracer.staged = []
    · simp only [if_pos hto]
    · simp only [if_neg hto]

@[simp] theorem source_refreshed {registry : Registry} {frame : Lines} {session : Session} :
    (refreshed registry source frame copy session).source = session.source := by
  unfold refreshed
  split
  · rfl
  · split <;> rfl

theorem refreshed_of_ne {registry : Registry} {frame : Lines} {session : Session}
    (hactive : registry.activeFor? copy = some tracer) (hne : tracer.source ≠ source) :
    refreshed registry source frame copy session = session := by
  unfold refreshed
  rw [hactive]
  exact if_neg fun hto => hne hto.1

theorem withCommit_eq (workspace : Workspace) (source : DocumentId) (document : Document) :
    let registry :=
      (workspace.registry.mergeStaged source document.modified workspace.policy).2
    workspace.withCommit source document =
      { workspace with
        documents := workspace.documents.put source document.commit
        registry
        sessions := workspace.sessions.map (refreshed registry source document.lines) } := rfl

theorem find?_sessions_withCommit (workspace : Workspace) (source : DocumentId)
    (document : Document) (copy : DocumentId) :
    (workspace.withCommit source document).sessions.find? copy = (workspace.sessions.find? copy).map
      (refreshed (workspace.withCommit source document).registry source document.lines copy) :=
  Table.find?_map workspace.sessions _ copy

theorem put_put (store : Store) (id : DocumentId) (document : Document) :
    (store.put id document).put id document = store.put id document :=
  congrArg (fun documents => { store with documents })
    (Table.insert_eq_self ((Table.find?_insert store.documents id id document).trans (if_pos rfl)))

/-- Committing a document again changes nothing. -/
theorem withCommit_withCommit (workspace : Workspace) (source : DocumentId) (document : Document) :
    (workspace.withCommit source document).withCommit source document.commit =
      workspace.withCommit source document := by
  have hregistry := workspace.registry.mergeStaged_mergeStaged source document.modified
    workspace.policy
  simp only [withCommit_eq]
  have hmodified : document.commit.modified = document.modified := rfl
  have hcommit : document.commit.commit = document.commit := rfl
  have hlines : document.commit.lines = document.lines := rfl
  rw [hmodified, hcommit, hlines, hregistry, put_put, Table.map_map]
  simp only [refreshed_refreshed]

/-- A second commit right after the first one merges nothing and changes nothing. -/
theorem commit_withCommit (workspace : Workspace) (source : DocumentId) (document : Document) :
    (workspace.withCommit source document).commit source =
      (.ok 0, workspace.withCommit source document) := by
  have hopen : (workspace.withCommit source document).documents.find? source =
      some document.commit := find?_documents_withCommit.trans (if_pos rfl)
  have hcount : (((workspace.withCommit source document).registry.tracersTo source).map
      fun tracer => (tracer.mergeStaged document.modified workspace.policy).1).sum = 0 := by
    apply List.sum_eq_zero_iff_forall_eq_nat.2
    intro count hcount
    obtain ⟨tracer, hmem, rfl⟩ := List.mem_map.1 hcount
    exact Registry.merged_of_mem_tracersTo hmem
  rw [commit_of_open hopen, withCommit_withCommit]
  exact congrArg (fun count => (Except.ok count, workspace.withCommit source document)) hcount

theorem Dated.merged (h : workspace.Dated) (hpolicy : workspace.policy.MergesNewer)
    (hopen : workspace.documents.find? source = some document)
    (hactive : workspace.registry.activeFor? copy = some tracer)
    (hsource : tracer.source = source) :
    tracer.mergeStaged document.modified workspace.policy =
      (tracer.staged.length, tracer.drained document.modified) :=
  (h.dated hactive (hsource ▸ hopen)).mergeStaged_eq hpolicy

/-- With a policy that lets newer stamps through, a commit moves everything that is staged. -/
theorem Dated.commit_of_open (h : workspace.Dated) (hpolicy : workspace.policy.MergesNewer)
    (hopen : workspace.documents.find? source = some document) :
    workspace.commit source =
      (.ok ((workspace.registry.tracersTo source).map fun tracer => tracer.staged.length).sum,
        workspace.withCommit source document) := by
  have hcounts : ((workspace.registry.tracersTo source).map fun tracer =>
      (tracer.mergeStaged document.modified workspace.policy).1) =
        (workspace.registry.tracersTo source).map fun tracer => tracer.staged.length := by
    apply List.map_congr_left
    intro tracer hmem
    obtain ⟨⟨copy, hactive⟩, hsource⟩ := Registry.mem_tracersTo_iff.1 hmem
    rw [h.merged hpolicy hopen hactive hsource]
  rw [Workspace.commit_of_open hopen, hcounts]

theorem Dated.activeFor?_withCommit (h : workspace.Dated) (hpolicy : workspace.policy.MergesNewer)
    (hopen : workspace.documents.find? source = some document) :
    (workspace.withCommit source document).registry.activeFor? copy =
      (workspace.registry.activeFor? copy).map fun tracer =>
        if tracer.source = source then tracer.drained document.modified else tracer := by
  rw [Workspace.activeFor?_withCommit]
  rcases hactive : workspace.registry.activeFor? copy with _ | tracer
  · rfl
  · by_cases hsource : tracer.source = source
    · simp only [Option.map_some, if_pos hsource, h.merged hpolicy hopen hactive hsource]
    · simp only [Option.map_some, if_neg hsource]

/-- **A commit drains everything.**  After any calls, on the workspace or past it on its documents,
a commit of an open document within the limit, whose lines it takes, succeeds.  With the policies
that the settings offer it merges as many edits as were staged in the live tracers to the document;
each of them keeps what it was, has its staged edits at the end of its log in order, has nothing
staged any more, and its baseline is the committed stamp of the document.  The other tracers are
untouched.  With any policy, a second commit right after it merges nothing and leaves the whole
workspace as it is. -/
theorem commit_drains (config : Config) (policy : CommitPolicy) {calls : List Call}
    (hopen : ((initial config policy).after calls).documents.find? source = some document) :
    let workspace := (initial config policy).after calls
    document.length ≤ Offset.limit →
    ∃ count committed, workspace.commit source = (.ok count, committed) ∧
      (policy = .stampAdvanced ∨ policy = .everyEdit →
        count = ((workspace.registry.tracersTo source).map fun tracer =>
          tracer.staged.length).sum ∧
        (∃ document', committed.documents.find? source = some document' ∧
          ∀ copy, committed.registry.activeFor? copy =
            (workspace.registry.activeFor? copy).map fun tracer =>
              if tracer.source = source then
                { tracer with
                  log := tracer.log.append tracer.staged
                  staged := []
                  baseline := document'.committed }
              else tracer)) ∧
      committed.commit source = (.ok 0, committed) := by
  intro workspace _
  have h : workspace.Dated := (dated_initial config policy).after calls
  refine ⟨_, _, commit_of_open hopen, ?_, commit_withCommit workspace source document⟩
  intro hbuiltIn
  have hpolicy : workspace.policy.MergesNewer := by
    have hchosen : workspace.policy = policy := policy_after (initial config policy) calls
    rw [hchosen]
    rcases hbuiltIn with rfl | rfl
    · exact CommitPolicy.mergesNewer_stampAdvanced
    · exact CommitPolicy.mergesNewer_everyEdit
  have hcommit := (commit_of_open hopen).symm.trans (h.commit_of_open hpolicy hopen)
  refine ⟨?_, document.commit, find?_documents_withCommit.trans (if_pos rfl),
    fun copy => h.activeFor?_withCommit hpolicy hopen⟩
  injection hcommit with hcount
  exact Except.ok.inj hcount

/-- Completions on two documents.  The first document was edited before its completion started, and
meanwhile it is committed and rewritten past the workspace.  Its commit merges the two edits that
are staged for it, and leaves alone what is staged for the other document. -/
theorem commit_drains_past_workspace :
    let calls : List Call := [.openDocument "/a" "ab", .openDocument "/b" "cd",
      .edit ⟨0⟩ ⟨0, 1, Nat.zero_le 1⟩ "é", .start ⟨0⟩ ⟨2, 3, by decide⟩ "X",
      .start ⟨1⟩ ⟨0, 0, Nat.zero_le 0⟩ "Y", .onDocuments (.commit ⟨0⟩),
      .edit ⟨0⟩ ⟨0, 0, Nat.zero_le 0⟩ "z", .edit ⟨1⟩ ⟨0, 1, Nat.zero_le 1⟩ "",
      .onDocuments (.setText ⟨0⟩ "q"), .edit ⟨0⟩ ⟨1, 1, Nat.le_refl 1⟩ "w"]
    let workspace := (initial .default .stampAdvanced).after calls
    let document : Document := ⟨⟨0⟩, some "/a", "qw", ⟨4⟩, ⟨1⟩, none⟩
    workspace.documents.find? ⟨0⟩ = some document ∧ document.length ≤ Offset.limit ∧
      ∃ committed, workspace.commit ⟨0⟩ = (.ok 2, committed) ∧
        committed.registry.activeFor? ⟨2⟩ = some ⟨⟨1⟩, ⟨2⟩, ⟨0⟩,
          ⟨⟨2, "b", "X"⟩, [⟨0, "z", ""⟩, ⟨1, "w", ""⟩]⟩, [], ⟨4⟩⟩ ∧
        committed.registry.activeFor? ⟨3⟩ = some ⟨⟨2⟩, ⟨3⟩, ⟨1⟩,
          ⟨⟨0, "", "Y"⟩, []⟩, [⟨0, "", "c"⟩], ⟨0⟩⟩ ∧
        committed.commit ⟨0⟩ = (.ok 0, committed) := by
  intro calls workspace document
  have hopen : workspace.documents.find? ⟨0⟩ = some document := by decide
  have hlength : document.length ≤ Offset.limit := by decide
  obtain ⟨count, committed, hcommit, hdrained, hagain⟩ :=
    commit_drains .default .stampAdvanced hopen hlength
  obtain ⟨hcount, document', hdocument, hactive⟩ := hdrained (Or.inl rfl)
  have hstaged : count = 2 := by
    have honly : workspace.registry.active.values.filter (fun tracer => tracer.source = ⟨0⟩) =
        [⟨⟨1⟩, ⟨2⟩, ⟨0⟩, ⟨⟨2, "b", "X"⟩, []⟩, [⟨0, "z", ""⟩, ⟨1, "w", ""⟩], ⟨0⟩⟩] := by decide
    rw [hcount, Registry.tracersTo, honly, List.mergeSort_singleton]
    rfl
  have hcommitted : document'.committed = ⟨4⟩ := by
    have hfind : (workspace.commit ⟨0⟩).2.documents.find? ⟨0⟩ = some document.commit := by decide
    rw [hcommit, hdocument, Option.some.injEq] at hfind
    rw [hfind]
    rfl
  have hfirst : workspace.registry.activeFor? ⟨2⟩ = some ⟨⟨1⟩, ⟨2⟩, ⟨0⟩,
      ⟨⟨2, "b", "X"⟩, []⟩, [⟨0, "z", ""⟩, ⟨1, "w", ""⟩], ⟨0⟩⟩ := by decide
  have hsecond : workspace.registry.activeFor? ⟨3⟩ = some ⟨⟨2⟩, ⟨3⟩, ⟨1⟩,
      ⟨⟨0, "", "Y"⟩, []⟩, [⟨0, "", "c"⟩], ⟨0⟩⟩ := by decide
  refine ⟨hopen, hlength, committed, hstaged ▸ hcommit, ?_, ?_, hagain⟩
  · rw [hactive, hfirst, hcommitted]
    rfl
  · rw [hactive, hsecond]
    rfl

end Retrace.Workspace
