import Retrace.Proofs.Completion.Lifetime
import Retrace.Proofs.Completion.Reuse
import Retrace.Proofs.Tracer.Age

/-!
# Which handles a new completion supersedes

A start supersedes the handle on the copy that it uses, and no other one
(`Launches.isUpToDate_iff`).  Sources are not looked at, so this supersedes every earlier completion
on the source only as long as all of them were on this copy.  They are if no call strands a handle
(`supersedes_unless_strands`), and a handle that was stranded stays up to date beside the new one.
-/

namespace Retrace.Workspace

variable {workspace changed placed : Workspace} {source copy id : DocumentId} {handle : Handle}
  {document : Document} {tracer : Tracer} {completion : Completion} {call : Call}
  {calls : List Call}

/-! ### Calls make the registry older -/

theorem registry_ages_endSessionsOn (workspace : Workspace) (source : DocumentId) :
    workspace.registry.Ages (workspace.endSessionsOn source).registry := by
  refine .of_kept lastGeneration_endSessionsOn ?_
  intro copy found hactive
  rw [activeFor?_endSessionsOn, Option.filter_eq_some_iff] at hactive
  exact ⟨found, hactive.1, rfl, rfl⟩

theorem registry_ages_withoutSession (workspace : Workspace) (copy : DocumentId) :
    workspace.registry.Ages (workspace.withoutSession copy).registry := by
  refine .of_kept rfl ?_
  intro id found hactive
  rw [activeFor?_withoutSession] at hactive
  split at hactive
  · cases hactive
  · exact ⟨found, hactive, rfl, rfl⟩

theorem registry_ages_withEdit (workspace : Workspace) (source : DocumentId) (edit : Edit)
    (edited : Document) :
    workspace.registry.Ages (workspace.withEdit source edit edited).registry :=
  .mapTo workspace.registry source (fun _ => rfl) fun _ => rfl

theorem registry_ages_withCommit (workspace : Workspace) (source : DocumentId)
    (document : Document) :
    workspace.registry.Ages (workspace.withCommit source document).registry :=
  .mapTo workspace.registry source
    (fun tracer => (Tracer.Grows.mergeStaged tracer _ workspace.policy).id_eq)
    fun tracer => (Tracer.Grows.mergeStaged tracer _ workspace.policy).source

theorem Effect.registry_ages (heffect : workspace.Effect call changed) :
    workspace.registry.Ages changed.registry := by
  cases heffect with
  | same => exact .refl _
  | opened path text => exact .refl _
  | reopened id path text => exact registry_ages_endSessionsOn workspace id
  | @closed id document hcall hopen hnocopy =>
      let closed : Workspace := { workspace with documents := (workspace.documents.close id).2 }
      exact registry_ages_endSessionsOn closed id
  | closedCopy hcall hopen hcopy hidle => exact .refl _
  | @closedSession id source document hcall hopen hcopy =>
      exact registry_ages_withoutSession workspace id
  | edited hopen happly => exact registry_ages_withEdit workspace _ _ _
  | editedCommitted hopen happly =>
      exact (registry_ages_withEdit workspace _ _ _).trans (registry_ages_withCommit _ _ _)
  | committed hopen => exact registry_ages_withCommit workspace _ _
  | @started source copy text creation document placed session hopen hplaced =>
      rw [← hplaced.registry]
      exact .register placed.registry rfl
  | disposed copy => exact registry_ages_withoutSession workspace copy
  | disposedAll => exact .of_kept rfl fun copy found hactive => by cases hactive
  | onDocuments hcall => exact .refl _

/-- Every call makes the registry older, on the workspace or past it. -/
theorem registry_ages_step (workspace : Workspace) (call : Call) :
    workspace.registry.Ages (workspace.step call).2.registry :=
  (step_effect workspace call).registry_ages

theorem registry_ages_after (workspace : Workspace) (calls : List Call) :
    workspace.registry.Ages (workspace.after calls).registry := by
  induction calls generalizing workspace with
  | nil => exact .refl _
  | cons call rest ih => exact (registry_ages_step workspace call).trans (ih _)

/-! ### Handles that were given out -/

/-- A handle that was given out and is live now was live before. -/
theorem liveOn_of_ages (hages : workspace.registry.Ages changed.registry)
    (hlive : changed.LiveOn handle source)
    (hissued : handle.generation.number ≤ workspace.registry.lastGeneration) :
    workspace.LiveOn handle source := by
  obtain ⟨tracer, hfind, rfl⟩ := hlive
  exact hages.find?_old hfind hissued

/-- A handle that a run has given out can only be live on its own source. -/
theorem source_of_started (hgiven : .started completion ∈ (workspace.run calls).1) :
    completion.handle.generation.number ≤ (workspace.after calls).registry.lastGeneration ∧
      ∀ other, (workspace.after calls).LiveOn completion.handle other →
        other = completion.source := by
  obtain ⟨front, call, back, rfl, hreply⟩ := exists_call_of_reply hgiven
  obtain ⟨hlive, hnumber⟩ := (launches_of_started hreply).2.liveOn
  have hissued := Nat.le_of_eq hnumber
  have hages := registry_ages_after ((workspace.after front).step call).2 back
  rw [after_append, after_cons]
  constructor
  · exact Nat.le_trans hissued hages.lastGeneration_le
  · intro other hother
    exact (liveOn_of_ages hages hother hissued).source_eq hlive

/-! ### Starting once more -/

theorem isUpToDate_iff_open : workspace.isUpToDate handle = true ↔
    ∃ source document, workspace.LiveOn handle source ∧
      workspace.documents.find? source = some document := by
  simp only [isUpToDate, tracer?, LiveOn, Option.isSome_iff_exists, Option.filter_eq_some_iff,
    Store.contains]
  constructor
  · rintro ⟨tracer, hfind, document, hopen⟩
    exact ⟨tracer.source, document, ⟨tracer, hfind, rfl⟩, hopen⟩
  · rintro ⟨source, document, ⟨tracer, hfind, rfl⟩, hopen⟩
    exact ⟨tracer, hfind, document, hopen⟩

namespace Launches

theorem grows (h : workspace.Launches completion changed) (hsound : workspace.documents.Sound) :
    workspace.documents.Grows changed.documents := by
  obtain ⟨document, creation, placed, session, -, -, hplaced, -, rfl⟩ := h
  exact hplaced.grows hsound

theorem isUpToDate_handle (h : workspace.Launches completion changed)
    (hsound : workspace.documents.Sound) : changed.isUpToDate completion.handle = true := by
  obtain ⟨hlive, -⟩ := h.liveOn
  have hgrows := h.grows hsound
  obtain ⟨document, creation, placed, session, hopen, -⟩ := h
  obtain ⟨later, hlater, -⟩ := hgrows.kept hopen
  exact isUpToDate_iff_open.2 ⟨completion.source, later, hlive, hlater⟩

theorem activeFor?_eq (h : workspace.Launches completion changed)
    (hne : copy ≠ completion.handle.copy) :
    changed.registry.activeFor? copy = workspace.registry.activeFor? copy := by
  obtain ⟨document, creation, placed, session, -, -, hplaced, hhandle, rfl⟩ := h
  rw [hhandle] at hne
  rw [activeFor?_withTracer, hplaced.registry]
  exact if_neg hne

/-- No handle that was given out before is live on the copy of the new completion. -/
theorem copy_ne (h : workspace.Launches completion changed)
    (hissued : handle.generation.number ≤ workspace.registry.lastGeneration)
    (hlive : changed.LiveOn handle source) : handle.copy ≠ completion.handle.copy := by
  obtain ⟨document, creation, placed, session, -, -, hplaced, hhandle, rfl⟩ := h
  intro hcopy
  rw [hhandle] at hcopy
  -- the tracer on the copy is the new one, and its generation was not given out before
  obtain ⟨tracer, hactive, hid, -⟩ := liveOn_iff.1 hlive
  rw [activeFor?_withTracer, hcopy] at hactive
  cases (if_pos rfl).symm.trans hactive
  rw [← hid] at hissued
  exact Nat.not_succ_le_self _ hissued

/-- A start supersedes the handle on its copy.  All others stay as they were. -/
theorem isUpToDate_iff (h : workspace.Launches completion changed) (hdated : workspace.Dated)
    (hages : workspace.registry.Ages changed.registry)
    (hissued : handle.generation.number ≤ workspace.registry.lastGeneration) :
    changed.isUpToDate handle = true ↔
      workspace.isUpToDate handle = true ∧ handle.copy ≠ completion.handle.copy := by
  have hgrows := h.grows hdated.sound
  rw [isUpToDate_iff_open, isUpToDate_iff_open]
  constructor
  · rintro ⟨source, original, hlive, horiginal⟩
    have hbefore := liveOn_of_ages hages hlive hissued
    refine ⟨?_, h.copy_ne hissued hlive⟩
    obtain ⟨tracer, hactive, -, rfl⟩ := liveOn_iff.1 hbefore
    obtain ⟨old, hold, -⟩ := hgrows.exists_old (hdated.source_given hactive) horiginal
    exact ⟨tracer.source, old, hbefore, hold⟩
  · rintro ⟨⟨source, original, hlive, horiginal⟩, hne⟩
    obtain ⟨later, hlater, -⟩ := hgrows.kept horiginal
    refine ⟨source, later, ?_, hlater⟩
    rw [liveOn_iff, h.activeFor?_eq hne, ← liveOn_iff]
    exact hlive

/-- A handle on the source that is up to date is on the copy in use, and the start uses this
copy. -/
theorem copy_eq (h : workspace.Launches completion changed) (hlisted : workspace.Listed)
    (hlive : workspace.LiveOn handle completion.source) :
    handle.copy = completion.handle.copy := by
  obtain ⟨document, creation, placed, session, hopen, -, hplaced, hhandle, -⟩ := h
  obtain ⟨tracer, hactive, -, hsource⟩ := liveOn_iff.1 hlive
  rw [← hsource] at hopen
  obtain ⟨hcopy, copied, hcopied⟩ := reusable?_eq_some_iff.1 (hlisted.tracer_listed hactive hopen)
  rw [hhandle]
  exact hplaced.eq_copy (hsource ▸ hcopy) hcopied

end Launches

theorem mem_replies_append {reply : Reply} :
    reply ∈ (workspace.run (calls ++ [call])).1 ↔
      reply ∈ (workspace.run calls).1 ∨ reply = ((workspace.after calls).step call).1 := by
  induction calls generalizing workspace with
  | nil => simp [run, after]
  | cons head rest ih =>
      have hreplies : ∀ more, (workspace.run (head :: more)).1 =
          (workspace.step head).1 :: ((workspace.step head).2.run more).1 := fun _ => rfl
      rw [List.cons_append, hreplies, hreplies, List.mem_cons, List.mem_cons, ih, or_assoc,
        after_cons]

/-- **Which handles a new completion supersedes.**  Calls are made on a workspace and past it, on
its documents, and then a completion starts on a document.  Its handle is up to date.  A handle that
was given out before is up to date afterwards exactly if it was before and is on another copy.  If
no call strands a handle, then of all handles that were given out for the document the new one is
the only one that is up to date. -/
theorem supersedes_unless_strands (config : Config) (policy : CommitPolicy)
    (hreply : (((initial config policy).after calls).step call).1 = .started completion) :
    let before := (initial config policy).after calls
    let started := (before.step call).2
    call.startsOn = some completion.source ∧
      started.isUpToDate completion.handle = true ∧
      (∀ other : Completion, .started other ∈ ((initial config policy).run calls).1 →
        (started.isUpToDate other.handle = true ↔
          before.isUpToDate other.handle = true ∧
            other.handle.copy ≠ completion.handle.copy)) ∧
      ((initial config policy).StrandsNone calls →
        ∀ other : Completion,
          .started other ∈ ((initial config policy).run (calls ++ [call])).1 →
            other.source = completion.source →
              (started.isUpToDate other.handle = true ↔ other.handle = completion.handle)) := by
  intro before started
  have hdated : before.Dated := (dated_initial config policy).after calls
  have hages : before.registry.Ages started.registry := registry_ages_step before call
  obtain ⟨hon, hlaunches⟩ := launches_of_started hreply
  have hlive : started.isUpToDate completion.handle = true :=
    hlaunches.isUpToDate_handle hdated.sound
  have hothers : ∀ other : Completion, .started other ∈ ((initial config policy).run calls).1 →
      (started.isUpToDate other.handle = true ↔ before.isUpToDate other.handle = true ∧
        other.handle.copy ≠ completion.handle.copy) := by
    intro other hgiven
    exact hlaunches.isUpToDate_iff hdated hages (source_of_started hgiven).1
  refine ⟨hon, hlive, hothers, ?_⟩
  intro hstays other hgiven hsource
  rcases mem_replies_append.1 hgiven with hearlier | hlast
  · have hlisted : before.Listed := (listed_initial config policy).after hstays
    have hstale : ¬ started.isUpToDate other.handle = true := by
      rw [hothers other hearlier]
      rintro ⟨hbefore, hne⟩
      obtain ⟨source, original, hother, -⟩ := isUpToDate_iff_open.1 hbefore
      have hto := (source_of_started hearlier).2 source hother
      exact hne (hlaunches.copy_eq hlisted (hsource ▸ hto ▸ hother))
    refine iff_of_false hstale ?_
    intro heq
    exact hstale (heq ▸ hlive)
  · rw [hreply] at hlast
    cases hlast
    exact iff_of_true hlive rfl

/-- Somebody makes a copy of their own and closes it again, and rewrites the copy in use, all past
the workspace.  No call strands a handle.  The second completion supersedes the first on its
document, and the completion on another document stays up to date. -/
theorem supersedes_past_workspace :
    let calls : List Call := [.openDocument "/a" "ab", .start ⟨0⟩ ⟨1, 1, Nat.le_refl 1⟩ "X",
      .onDocuments (.createCopy ⟨0⟩ "c"), .onDocuments (.setText ⟨1⟩ "q"),
      .onDocuments (.close ⟨2⟩), .onDocuments (.openPath "/b" "cd"),
      .start ⟨3⟩ ⟨0, 0, Nat.le_refl 0⟩ "Z"]
    let call : Call := .start ⟨0⟩ ⟨1, 1, Nat.le_refl 1⟩ "Y"
    let first : Completion := ⟨⟨0⟩, ⟨1⟩, ⟨⟨1⟩, ⟨1⟩⟩, "aXb"⟩
    let beside : Completion := ⟨⟨3⟩, ⟨4⟩, ⟨⟨4⟩, ⟨2⟩⟩, "Zcd"⟩
    let second : Completion := ⟨⟨0⟩, ⟨1⟩, ⟨⟨1⟩, ⟨3⟩⟩, "aYb"⟩
    let before := (initial .default .stampAdvanced).after calls
    let started := (before.step call).2
    (before.step call).1 = .started second ∧
      (initial .default .stampAdvanced).StrandsNone calls ∧
      before.isUpToDate first.handle = true ∧ started.isUpToDate first.handle = false ∧
      started.isUpToDate beside.handle = true ∧ started.isUpToDate second.handle = true := by
  intro calls call first beside second before started
  have hreply : (before.step call).1 = .started second := by decide
  have hstays : (initial .default .stampAdvanced).StrandsNone calls := by decide
  obtain ⟨-, hlive, hothers, honly⟩ := supersedes_unless_strands .default .stampAdvanced hreply
  have hfirst := (honly hstays first (by decide) rfl).not.2 (by decide)
  have hbeside := (hothers beside (by decide)).2 ⟨by decide, by decide⟩
  exact ⟨hreply, hstays, by decide, Bool.not_eq_true _ ▸ hfirst, hbeside, hlive⟩

/-- Somebody makes a copy of their own, past the workspace, and closes it through the workspace,
which forgets the copy in use with it.  The next completion gets a new copy, and two handles on one
document are up to date. -/
theorem stranded_beside_new_completion :
    let calls : List Call := [.openDocument "/a" "ab", .start ⟨0⟩ ⟨1, 1, Nat.le_refl 1⟩ "X",
      .onDocuments (.createCopy ⟨0⟩ "c"), .closeDocument ⟨2⟩]
    let call : Call := .start ⟨0⟩ ⟨1, 1, Nat.le_refl 1⟩ "Y"
    let first : Completion := ⟨⟨0⟩, ⟨1⟩, ⟨⟨1⟩, ⟨1⟩⟩, "aXb"⟩
    let second : Completion := ⟨⟨0⟩, ⟨3⟩, ⟨⟨3⟩, ⟨2⟩⟩, "aYb"⟩
    let before := (initial .default .stampAdvanced).after calls
    let started := (before.step call).2
    .started first ∈ ((initial .default .stampAdvanced).run calls).1 ∧
      (before.step call).1 = .started second ∧ first.source = second.source ∧
      first.handle ≠ second.handle ∧ started.isUpToDate first.handle = true ∧
      started.isUpToDate second.handle = true := by
  decide

end Retrace.Workspace
