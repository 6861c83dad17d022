import Retrace.Proofs.Completion.Isolation

/-!
# Commits after every edit

With the policy `everyEdit` the workspace commits after every edit that is accepted.  Whoever uses
`stampAdvanced` can make these commits: then all replies are the same, and so is the workspace at
every point, its policy apart (`Dated.after_committing`).

The policies differ where nothing is newer than a baseline.  There nothing is staged, and merging
nothing and not merging come to the same.
-/

namespace Retrace.Workspace

variable {workspace : Workspace} {source copy id : DocumentId} {document edited : Document}
  {edit : Edit} {call : Call} {calls : List Call} {policy : CommitPolicy}

/-! ### Changing the policy -/

@[simp] theorem policy_withPolicy : (workspace.withPolicy policy).policy = policy := rfl

theorem Dated.withPolicy (h : workspace.Dated) (policy : CommitPolicy) :
    (workspace.withPolicy policy).Dated := ⟨h.sound, h.source_given, h.dated⟩

theorem endSessionsOn_withPolicy (workspace : Workspace) (source : DocumentId)
    (policy : CommitPolicy) :
    (workspace.withPolicy policy).endSessionsOn source =
      (workspace.endSessionsOn source).withPolicy policy := by
  unfold endSessionsOn
  rw [show (workspace.withPolicy policy).copies = workspace.copies from rfl]
  rcases workspace.copies.find? source with _ | copy <;> rfl

theorem dispose_withPolicy (workspace : Workspace) (handle : Handle) (policy : CommitPolicy) :
    (workspace.withPolicy policy).dispose handle =
      ((workspace.dispose handle).1, (workspace.dispose handle).2.withPolicy policy) := by
  unfold dispose
  rw [show (workspace.withPolicy policy).registry = workspace.registry from rfl]
  rcases workspace.registry.dispose handle with ⟨_ | tracer, registry⟩ <;> rfl

theorem openDocument_withPolicy (workspace : Workspace) (path text : String)
    (policy : CommitPolicy) :
    (workspace.withPolicy policy).openDocument path text =
      ((workspace.openDocument path text).1,
        (workspace.openDocument path text).2.withPolicy policy) := by
  unfold openDocument
  rw [show (workspace.withPolicy policy).documents = workspace.documents from rfl]
  rcases workspace.documents.idForPath? path with _ | id
  · rfl
  · simp only
    rcases workspace.documents.find? id with _ | document
    · rfl
    · simp only
      split
      · rw [endSessionsOn_withPolicy]
        rfl
      · rfl

theorem closeDocument_withPolicy (workspace : Workspace) (id : DocumentId)
    (policy : CommitPolicy) :
    (workspace.withPolicy policy).closeDocument id =
      ((workspace.closeDocument id).1, (workspace.closeDocument id).2.withPolicy policy) := by
  unfold closeDocument
  rw [show (workspace.withPolicy policy).documents = workspace.documents from rfl]
  rcases workspace.documents.close id with ⟨_ | document, documents⟩
  · rfl
  · simp only
    rcases document.copyOf with _ | source
    · exact congrArg (Prod.mk true)
        (endSessionsOn_withPolicy { workspace with documents := documents } id policy)
    · simp only
      rw [show (workspace.withPolicy policy).registry = workspace.registry from rfl]
      rcases workspace.registry.activeFor? id with _ | tracer
      · rfl
      · have hdisposed := dispose_withPolicy
          { workspace with documents := documents, copies := workspace.copies.erase source }
          ⟨id, tracer.id⟩ policy
        exact congrArg (fun disposed : Bool × Workspace => (true, disposed.2)) hdisposed

theorem placeCopy_withPolicy (workspace : Workspace) (source : DocumentId) (text : String)
    (policy : CommitPolicy) :
    (workspace.withPolicy policy).placeCopy source text =
      (workspace.placeCopy source text).map fun placed =>
        (placed.1, placed.2.withPolicy policy) := by
  unfold placeCopy Store.createCopy
  rw [show (workspace.withPolicy policy).documents = workspace.documents from rfl,
    show (workspace.withPolicy policy).copies = workspace.copies from rfl]
  simp only
  split
  · split <;> rfl
  · split
    · split <;> rfl
    · rfl

theorem start_withPolicy (workspace : Workspace) (source : DocumentId) (span : Span)
    (replacement : String) (policy : CommitPolicy) :
    (workspace.withPolicy policy).start source span replacement =
      ((workspace.start source span replacement).1,
        (workspace.start source span replacement).2.withPolicy policy) := by
  unfold start
  rw [show (workspace.withPolicy policy).documents = workspace.documents from rfl]
  rcases workspace.documents.get source with refusal | document
  · rfl
  · simp only
    split
    · rfl
    · rcases document.cut span with refusal | parts
      · rfl
      · simp only [placeCopy_withPolicy]
        rcases workspace.placeCopy source (parts.replace replacement) with
          refusal | ⟨copy, placed⟩ <;> rfl

theorem startAt_withPolicy (workspace : Workspace) (source : DocumentId) (caret : Nat)
    (policy : CommitPolicy) :
    (workspace.withPolicy policy).startAt source caret =
      ((workspace.startAt source caret).1,
        (workspace.startAt source caret).2.withPolicy policy) := by
  unfold startAt startAtRun
  rw [show (workspace.withPolicy policy).documents = workspace.documents from rfl]
  rcases workspace.documents.get source with refusal | document
  · rfl
  · simp only
    rcases document.cut (.caret caret) with refusal | parts
    · rfl
    · simp only
      rcases Span.between caret (Text.runEnd _ document.text caret) with fault | span
      · rfl
      · exact start_withPolicy workspace source span _ policy

/-! ### Commits under another policy -/

/-- Policies that let newer stamps through merge alike, if the tracers are dated by the stamp. -/
theorem mergeStaged_eq_of_dated {registry : Registry} {stamp : Stamp} {other : CommitPolicy}
    (hdated : ∀ {copy tracer}, registry.activeFor? copy = some tracer → tracer.source = source →
      tracer.DatedBy stamp) (hpolicy : policy.MergesNewer) (hother : other.MergesNewer) :
    (registry.mergeStaged source stamp other).2 = (registry.mergeStaged source stamp policy).2 := by
  refine congrArg (fun active => { registry with active }) (Table.map_congr ?_)
  intro copy tracer hactive
  by_cases hto : tracer.source = source
  · simp only [if_pos hto, (hdated hactive hto).mergeStaged_eq hpolicy,
      (hdated hactive hto).mergeStaged_eq hother]
  · rw [if_neg hto, if_neg hto]

theorem Dated.withCommit_withPolicy (h : workspace.Dated)
    (hpolicy : workspace.policy.MergesNewer) (hother : policy.MergesNewer)
    (hopen : workspace.documents.find? source = some document) :
    (workspace.withPolicy policy).withCommit source document =
      (workspace.withCommit source document).withPolicy policy := by
  have hmerged : (workspace.registry.mergeStaged source document.modified policy).2 =
      (workspace.registry.mergeStaged source document.modified workspace.policy).2 :=
    mergeStaged_eq_of_dated (fun hactive hto => h.dated hactive (hto ▸ hopen)) hpolicy hother
  rw [withCommit_eq, withCommit_eq]
  simp only [Workspace.withPolicy, hmerged]

theorem Dated.commit_withPolicy (h : workspace.Dated) (hpolicy : workspace.policy.MergesNewer)
    (hother : policy.MergesNewer) (source : DocumentId) :
    (workspace.withPolicy policy).commit source =
      ((workspace.commit source).1, (workspace.commit source).2.withPolicy policy) := by
  rcases hfind : workspace.documents.find? source with _ | document
  · have hfind' : (workspace.withPolicy policy).documents.find? source = none := hfind
    simp only [commit, Store.get, hfind, hfind']
    rfl
  · rw [h.commit_of_open hpolicy hfind,
      (h.withPolicy policy).commit_of_open (policy_withPolicy ▸ hother) hfind,
      h.withCommit_withPolicy hpolicy hother hfind]
    rfl

/-- Whether an edit is made does not depend on the policy. -/
theorem noteEdit_withPolicy (workspace : Workspace) (source : DocumentId) (edit : Edit)
    (policy : CommitPolicy) :
    (∃ failure, workspace.noteEdit source edit = (.error failure, workspace) ∧
        (workspace.withPolicy policy).noteEdit source edit =
          (.error failure, workspace.withPolicy policy)) ∨
      ∃ document edited, workspace.documents.find? source = some document ∧
        document.copyOf = none ∧ document.apply edit = .ok edited := by
  have hdocuments : (workspace.withPolicy policy).documents = workspace.documents := rfl
  rcases hfind : workspace.documents.find? source with _ | document
  · refine Or.inl ⟨.refused (.unknownDocument source), ?_, ?_⟩ <;>
      simp only [noteEdit, Store.get, hdocuments, hfind, refuse]
  · by_cases hcopy : document.copyOf = none
    · rcases happly : document.apply edit with failure | edited
      · refine Or.inl ⟨failure, ?_, ?_⟩ <;>
          simp only [noteEdit, Store.get, hdocuments, hfind, if_neg (not_not_intro hcopy), happly]
      · exact Or.inr ⟨document, edited, rfl, hcopy, happly⟩
    · refine Or.inl ⟨.refused (.needsSource source), ?_, ?_⟩ <;>
        simp only [noteEdit, Store.get, hdocuments, hfind, if_pos hcopy, refuse]

/-- An edit under `everyEdit` is the edit under `stampAdvanced`, with a commit after it if it is
accepted. -/
theorem Dated.noteEdit_everyEdit (h : workspace.Dated) (hpolicy : workspace.policy = .everyEdit)
    (source : DocumentId) (edit : Edit) :
    (∃ failure noted, workspace.noteEdit source edit = (.error failure, noted) ∧
        (workspace.withPolicy .stampAdvanced).noteEdit source edit =
          (.error failure, noted.withPolicy .stampAdvanced)) ∨
      ∃ noted waiting count, workspace.noteEdit source edit = (.ok (), noted) ∧
        (workspace.withPolicy .stampAdvanced).noteEdit source edit = (.ok (), waiting) ∧
        waiting.commit source = (.ok count, noted.withPolicy .stampAdvanced) := by
  rcases workspace.noteEdit_withPolicy source edit .stampAdvanced with
    ⟨failure, heq, heq'⟩ | ⟨document, edited, hopen, hcopy, happly⟩
  · exact Or.inl ⟨failure, workspace, heq, heq'⟩
  · have hedited := h.withEdit hopen happly
    have hmerges : (workspace.withEdit source edit edited).policy.MergesNewer := by
      rw [show (workspace.withEdit source edit edited).policy = workspace.policy from rfl, hpolicy]
      exact CommitPolicy.mergesNewer_everyEdit
    rcases hswept : (workspace.sessions.sweep (Session.carry source edit)).1 with fault | _
    · refine Or.inl ⟨_, _, noteEdit_of_fault hopen hcopy happly hswept, ?_⟩
      exact noteEdit_of_fault hopen hcopy happly hswept
    · have hnoted := noteEdit_of_swept hopen hcopy happly hswept
      rw [hpolicy] at hnoted
      have hcommit :=
        hedited.commit_withPolicy hmerges CommitPolicy.mergesNewer_stampAdvanced source
      rw [hedited.commit_of_open hmerges find?_source_withEdit] at hcommit
      exact Or.inr ⟨_, _, _, hnoted, noteEdit_of_swept hopen hcopy happly hswept, hcommit⟩

/-! ### Runs with a commit after every edit -/

/-- The commit that is due after a call: that of the document whose edit was accepted. -/
def Call.commitAfter : Call → Reply → List Call
  | .noteEdit source _, .noted => [.commit source]
  | .edit id _ _, .edited _ => [.commit id]
  | _, _ => []

/-- The calls with a commit after every edit that is accepted. -/
def committing (workspace : Workspace) : List Call → List Call
  | [] => []
  | call :: rest =>
      let stepped := workspace.step call
      let commits := call.commitAfter stepped.1
      call :: (commits ++ (stepped.2.after commits).committing rest)

theorem Dated.edit_everyEdit (h : workspace.Dated) (hpolicy : workspace.policy = .everyEdit)
    (id : DocumentId) (span : Span) (text : String) :
    (∃ failure edited, workspace.edit id span text = (.error failure, edited) ∧
        (workspace.withPolicy .stampAdvanced).edit id span text =
          (.error failure, edited.withPolicy .stampAdvanced)) ∨
      ∃ edit edited waiting count, workspace.edit id span text = (.ok edit, edited) ∧
        (workspace.withPolicy .stampAdvanced).edit id span text = (.ok edit, waiting) ∧
        waiting.commit id = (.ok count, edited.withPolicy .stampAdvanced) := by
  have hdocuments : (workspace.withPolicy .stampAdvanced).documents = workspace.documents := rfl
  rcases hfind : workspace.documents.find? id with _ | document
  · refine Or.inl ⟨.refused (.unknownDocument id), workspace, ?_, ?_⟩ <;>
      simp only [Workspace.edit, Store.get, hdocuments, hfind, refuse]
  · rcases hcut : document.cut span with refusal | parts
    · refine Or.inl ⟨.refused refusal, workspace, ?_, ?_⟩ <;>
        simp only [Workspace.edit, Store.get, hdocuments, hfind, hcut, refuse]
    · have hfind' : (workspace.withPolicy .stampAdvanced).documents.find? id = some document :=
        hfind
      rw [edit_of_cut hfind hcut, edit_of_cut hfind' hcut]
      rcases h.noteEdit_everyEdit hpolicy id ⟨span.start, parts.inside, text⟩ with
        ⟨failure, noted, heq, heq'⟩ | ⟨noted, waiting, count, heq, heq', hcommit⟩
      · rw [heq, heq']
        exact Or.inl ⟨failure, noted, rfl, rfl⟩
      · rw [heq, heq']
        exact Or.inr ⟨_, noted, waiting, count, rfl, rfl, hcommit⟩

/-- A call that does not read the policy. -/
theorem everyEdit_of_same
    (hsame : (workspace.withPolicy .stampAdvanced).step call =
      ((workspace.step call).1, (workspace.step call).2.withPolicy .stampAdvanced))
    (hcommits : ∀ reply, call.commitAfter reply = []) :
    let stepped := (workspace.withPolicy .stampAdvanced).step call
    stepped.1 = (workspace.step call).1 ∧
      stepped.2.after (call.commitAfter stepped.1) =
        (workspace.step call).2.withPolicy .stampAdvanced := by
  intro stepped
  have hstepped : stepped =
      ((workspace.step call).1, (workspace.step call).2.withPolicy .stampAdvanced) := hsame
  rw [hcommits, hstepped]
  exact ⟨rfl, rfl⟩

/-- A call under `everyEdit` is the call under `stampAdvanced` with the commit that is due. -/
theorem Dated.step_everyEdit (h : workspace.Dated) (hpolicy : workspace.policy = .everyEdit)
    (call : Call) :
    let stepped := (workspace.withPolicy .stampAdvanced).step call
    stepped.1 = (workspace.step call).1 ∧
      stepped.2.after (call.commitAfter stepped.1) =
        (workspace.step call).2.withPolicy .stampAdvanced := by
  cases call with
  | openDocument path text =>
      refine everyEdit_of_same ?_ fun _ => rfl
      simp only [Workspace.step, openDocument_withPolicy]
  | closeDocument id =>
      refine everyEdit_of_same ?_ fun _ => rfl
      simp only [Workspace.step, closeDocument_withPolicy]
  | noteEdit source edit =>
      simp only [Workspace.step]
      rcases h.noteEdit_everyEdit hpolicy source edit with
        ⟨failure, noted, heq, heq'⟩ | ⟨noted, waiting, count, heq, heq', hcommit⟩
      · rw [heq, heq']
        exact ⟨rfl, rfl⟩
      · rw [heq, heq']
        exact ⟨rfl, congrArg Prod.snd hcommit⟩
  | edit id span text =>
      simp only [Workspace.step]
      rcases h.edit_everyEdit hpolicy id span text with
        ⟨failure, edited, heq, heq'⟩ | ⟨edit, edited, waiting, count, heq, heq', hcommit⟩
      · rw [heq, heq']
        exact ⟨rfl, rfl⟩
      · rw [heq, heq']
        exact ⟨rfl, congrArg Prod.snd hcommit⟩
  | commit source =>
      have hmerges : workspace.policy.MergesNewer := hpolicy ▸ CommitPolicy.mergesNewer_everyEdit
      refine everyEdit_of_same ?_ fun _ => rfl
      simp only [Workspace.step,
        h.commit_withPolicy hmerges CommitPolicy.mergesNewer_stampAdvanced source]
  | start source span replacement =>
      refine everyEdit_of_same ?_ fun _ => rfl
      simp only [Workspace.step, start_withPolicy]
  | startAt source caret =>
      refine everyEdit_of_same ?_ fun _ => rfl
      simp only [Workspace.step, startAt_withPolicy]
  | dispose handle =>
      refine everyEdit_of_same ?_ fun _ => rfl
      simp only [Workspace.step, dispose_withPolicy]
  | disposeAll => exact everyEdit_of_same rfl fun _ => rfl
  | onDocuments call => exact everyEdit_of_same rfl fun _ => rfl

/-- **Committing after every edit.**  Calls under `everyEdit` leave the workspace that the same
calls leave under `stampAdvanced` with a commit after every edit that is accepted. -/
theorem Dated.after_committing (h : workspace.Dated) (hpolicy : workspace.policy = .everyEdit)
    (calls : List Call) :
    (workspace.withPolicy .stampAdvanced).after
        ((workspace.withPolicy .stampAdvanced).committing calls) =
      (workspace.after calls).withPolicy .stampAdvanced := by
  induction calls generalizing workspace with
  | nil => rfl
  | cons call rest ih =>
      obtain ⟨-, hstep⟩ := h.step_everyEdit hpolicy call
      have hrest := ih (h.step call) ((workspace.policy_step call).trans hpolicy)
      rw [committing, after_cons, after_append, hstep, hrest]
      rfl

end Retrace.Workspace
