import Retrace.Proofs.Completion.EveryEdit
import Retrace.Proofs.Completion.Plain

/-!
# Where commits are placed does not matter

Two runs make the same calls, and commit sources in between wherever they like.  The commits change
nothing that other calls can tell (`plain_after`), so all other replies agree.  At the end every
open source is committed.  Then it is settled: nothing is staged, and stamps, baselines and lines
are those of its text (`settled_after_commits`).  A workspace in which all sources are settled is
known from its plain form, so both runs end in the same state (`commits_anywhere`).
-/

namespace Retrace.Workspace

variable {workspace changed left right : Workspace} {source copy id : DocumentId}
  {document : Document} {call : Call} {calls : List Call} {sources : List DocumentId}

/-! ### Runs with commits in between -/

/-- The commits of a run are not commits of copies. -/
def CommitsSources (workspace : Workspace) : List Call → Prop
  | [] => True
  | call :: rest =>
      (∀ id ∈ call.committed?, workspace.copyOf? id = none) ∧
        (workspace.step call).2.CommitsSources rest

instance decidableCommitsSources (workspace : Workspace) :
    (calls : List Call) → Decidable (workspace.CommitsSources calls)
  | [] => inferInstanceAs (Decidable True)
  | call :: rest =>
      have := decidableCommitsSources (workspace.step call).2 rest
      inferInstanceAs (Decidable (_ ∧ _))

theorem commitsSources_append {front back : List Call} :
    workspace.CommitsSources (front ++ back) ↔
      workspace.CommitsSources front ∧ (workspace.after front).CommitsSources back := by
  induction front generalizing workspace with
  | nil => exact ⟨fun h => ⟨trivial, h⟩, fun h => h.2⟩
  | cons call rest ih =>
      rw [List.cons_append, CommitsSources, CommitsSources, ih, and_assoc, after_cons]

/-- The calls of a run other than commits. -/
def besidesCommits (calls : List Call) : List Call := calls.filter fun call => !call.isCommit

/-- The calls of a run other than commits, each with its reply. -/
def answered (workspace : Workspace) (calls : List Call) : List (Call × Reply) :=
  (calls.zip (workspace.run calls).1).filter fun made => !made.1.isCommit

theorem answered_cons (workspace : Workspace) (call : Call) (rest : List Call) :
    workspace.answered (call :: rest) =
      if call.isCommit then (workspace.step call).2.answered rest
      else (call, (workspace.step call).1) :: (workspace.step call).2.answered rest := by
  have hzip : (call :: rest).zip (workspace.run (call :: rest)).1 =
      (call, (workspace.step call).1) :: rest.zip ((workspace.step call).2.run rest).1 := rfl
  unfold answered
  rw [hzip, List.filter_cons]
  cases call.isCommit <;> rfl

/-- Calls that are no commits have the same replies on workspaces that differ by commits alone. -/
theorem alike_step_of_plain (hplain : left.plain = right.plain) (hown : call.isOwn = true)
    (hcommit : call.isCommit = false) : Alike (left.step call) (right.step call) := by
  obtain ⟨hreply, hstate⟩ := alike_step left hown hcommit
  obtain ⟨hreply', hstate'⟩ := alike_step right hown hcommit
  rw [hplain] at hreply hstate
  exact ⟨hreply.symm.trans hreply', hstate.symm.trans hstate'⟩

/-- A run gives the replies and the plain workspace of its calls without the commits. -/
theorem plain_after (hplain : left.plain = right.plain)
    (hown : ∀ call ∈ calls, call.isOwn = true) (hcommits : left.CommitsSources calls) :
    (left.after calls).plain = (right.after (besidesCommits calls)).plain ∧
      left.answered calls = right.answered (besidesCommits calls) := by
  induction calls generalizing left right with
  | nil => exact ⟨hplain, rfl⟩
  | cons call rest ih =>
      rw [List.forall_mem_cons] at hown
      cases hcommit : call.isCommit with
      | true =>
          cases call with
          | commit id =>
              have hsame : (left.step (.commit id)).2.plain = right.plain :=
                (plain_commit (hcommits.1 id rfl)).trans hplain
              exact ih hsame hown.2 hcommits.2
          | _ => cases hcommit
      | false =>
          obtain ⟨hreply, hstate⟩ := alike_step_of_plain hplain hown.1 hcommit
          obtain ⟨hafter, hanswered⟩ := ih hstate hown.2 hcommits.2
          have hcalls : besidesCommits (call :: rest) = call :: besidesCommits rest := by
            simp [besidesCommits, hcommit]
          rw [hcalls, answered_cons, answered_cons, hcommit, hreply, hanswered]
          exact ⟨hafter, rfl⟩

/-! ### Settled sources -/

/-- Nothing of a document waits for a commit: its changes are committed, the tracers to it have
merged everything up to its last commit, and the sessions on it have its lines. -/
structure Settled (workspace : Workspace) (source : DocumentId) (document : Document) : Prop where
  opened : workspace.documents.find? source = some document
  committed_eq : document.committed = document.modified
  tracer : ∀ {copy : DocumentId} {tracer : Tracer},
    workspace.registry.activeFor? copy = some tracer → tracer.source = source →
      tracer.staged = [] ∧ tracer.baseline = document.committed
  session : ∀ {copy : DocumentId} {session : Session},
    workspace.sessions.find? copy = some session → session.source = source →
      session.frame = document.lines

theorem SameOn.settled (hsame : workspace.SameOn changed source)
    (h : workspace.Settled source document) : changed.Settled source document where
  opened := hsame.document.trans h.opened
  committed_eq := h.committed_eq
  tracer hactive hto := h.tracer ((hsame.tracer hto).1 hactive) hto
  session hsession hon := h.session ((hsame.session hon).1 hsession) hon

/-- A commit settles its document. -/
theorem settled_withCommit (h : workspace.Coherent) (hdated : workspace.Dated)
    (hpolicy : workspace.policy.MergesNewer)
    (hopen : workspace.documents.find? source = some document) :
    (workspace.withCommit source document).Settled source document.commit := by
  have hmerged : ∀ {copy tracer},
      (workspace.withCommit source document).registry.activeFor? copy = some tracer →
        tracer.source = source → tracer.staged = [] ∧ tracer.baseline = document.modified := by
    intro copy tracer hactive hto
    rw [hdated.activeFor?_withCommit hpolicy hopen] at hactive
    obtain ⟨old, hold, rfl⟩ := Option.map_eq_some_iff.1 hactive
    split at hto
    · next hsource =>
        rw [if_pos hsource]
        exact ⟨rfl, rfl⟩
    · next hother => exact absurd hto hother
  have hcoherent : (workspace.withCommit source document).Coherent :=
    (h.keeps_withCommit hopen).coherent h
  refine ⟨find?_documents_withCommit.trans (if_pos rfl), rfl, hmerged, ?_⟩
  intro copy session hsession hon
  obtain ⟨tracer, hactive, hsource⟩ := hcoherent.exists_tracer hsession
  rw [find?_sessions_withCommit] at hsession
  obtain ⟨old, hold, rfl⟩ := Option.map_eq_some_iff.1 hsession
  -- the session has taken over the lines, because nothing is staged with its tracer
  have hto : tracer.source = source := hsource.symm.trans hon
  simp only [refreshed, hactive, if_pos (And.intro hto (hmerged hactive hto).1)]
  rfl

/-- Further commits leave a settled document settled. -/
theorem Settled.commit (hsettled : workspace.Settled source document) (h : workspace.Coherent)
    (hdated : workspace.Dated) (hpolicy : workspace.policy.MergesNewer)
    (hcopy : workspace.copyOf? id = none) :
    (workspace.commit id).2.Settled source document := by
  by_cases heq : id = source
  · subst heq
    -- a document that is committed already is committed again
    have hsame : document.commit = document :=
      Document.commit_of_committed_eq hsettled.committed_eq
    have hagain := settled_withCommit h hdated hpolicy hsettled.opened
    rw [hsame] at hagain
    rw [hdated.commit_of_open hpolicy hsettled.opened]
    exact hagain
  · refine (h.sameOn_commit heq ?_).settled hsettled
    intro hlisted
    obtain ⟨copied, hcopied, hof⟩ := h.copy_open hlisted
    rw [copyOf?_of_open hcopied, hof] at hcopy
    cases hcopy

/-- A commit opens and closes nothing. -/
theorem copyOf_commit (workspace : Workspace) (id other : DocumentId) :
    ((workspace.commit id).2.documents.find? other).map Document.copyOf =
      (workspace.documents.find? other).map Document.copyOf := by
  rcases workspace.commit_cases id with ⟨-, heq⟩ | ⟨document, count, hopen, heq⟩
  · rw [heq]
    rfl
  · rw [heq]
    exact Coherent.map_copyOf_put hopen (rfl : document.commit.copyOf = document.copyOf) other

theorem copyOf_after_commits (workspace : Workspace) (sources : List DocumentId)
    (other : DocumentId) :
    ((workspace.after (sources.map Call.commit)).documents.find? other).map Document.copyOf =
      (workspace.documents.find? other).map Document.copyOf := by
  induction sources generalizing workspace with
  | nil => rfl
  | cons id rest ih => exact (ih (workspace.commit id).2).trans (workspace.copyOf_commit id other)

/-- Committing a list of documents settles each of them. -/
theorem settled_after_commits (h : workspace.Coherent) (hdated : workspace.Dated)
    (hpolicy : workspace.policy.MergesNewer)
    (hcommits : workspace.CommitsSources (sources.map Call.commit)) :
    (∀ {document}, workspace.Settled source document →
        (workspace.after (sources.map Call.commit)).Settled source document) ∧
      ∀ {document}, workspace.documents.find? source = some document → source ∈ sources →
        ∃ settled, (workspace.after (sources.map Call.commit)).Settled source settled := by
  induction sources generalizing workspace with
  | nil => exact ⟨fun hsettled => hsettled, fun _ hmem => by cases hmem⟩
  | cons id rest ih =>
      have hown : (Call.commit id).isOwn = true := rfl
      obtain ⟨hkept, hsettles⟩ := ih (h.step hown) (hdated.step (.commit id))
        ((workspace.policy_step (.commit id)).symm ▸ hpolicy) hcommits.2
      have hcopy : workspace.copyOf? id = none := hcommits.1 id rfl
      refine ⟨fun hsettled => hkept (hsettled.commit h hdated hpolicy hcopy), ?_⟩
      intro document hopen hmem
      rcases List.mem_cons.1 hmem with rfl | hrest
      · refine ⟨document.commit, hkept ?_⟩
        have hcommit := hdated.commit_of_open hpolicy hopen
        have hsettled := settled_withCommit h hdated hpolicy hopen
        simp only [step, hcommit]
        exact hsettled
      · have hsame := workspace.copyOf_commit id source
        rw [hopen] at hsame
        obtain ⟨later, hlater, -⟩ := Option.map_eq_some_iff.1 hsame
        exact hsettles hlater hrest

/-! ### Settled workspaces -/

/-- Every open document that is no copy is settled. -/
def AllSettled (workspace : Workspace) : Prop :=
  ∀ source document, workspace.documents.find? source = some document →
    document.copyOf = none → workspace.Settled source document

theorem allSettled_after_commits (h : workspace.Coherent) (hdated : workspace.Dated)
    (hpolicy : workspace.policy.MergesNewer)
    (hcommits : workspace.CommitsSources (sources.map Call.commit))
    (hall : ∀ id document, workspace.documents.find? id = some document →
      document.copyOf = none → id ∈ sources) :
    (workspace.after (sources.map Call.commit)).AllSettled := by
  intro source document hopen hcopy
  have hsame := workspace.copyOf_after_commits sources source
  rw [hopen, Option.map_some, hcopy] at hsame
  obtain ⟨original, horiginal, hnocopy⟩ := Option.map_eq_some_iff.1 hsame.symm
  obtain ⟨settled, hsettled⟩ := (settled_after_commits h hdated hpolicy hcommits).2 horiginal
    (hall source original horiginal hnocopy)
  have hfound := hsettled.opened
  rw [hopen, Option.some.injEq] at hfound
  exact hfound ▸ hsettled

theorem AllSettled.documents_plain (h : workspace.AllSettled) :
    workspace.documents.plain = workspace.documents := by
  refine congrArg (fun documents => { workspace.documents with documents }) (Table.map_eq_self ?_)
  intro id document hopen
  unfold Document.plain
  split
  · next hcopy => exact Document.commit_of_committed_eq (h id document hopen hcopy).committed_eq
  · rfl

/-- A workspace whose sources are all settled is known from what does not depend on commits. -/
theorem eq_of_plain_eq (h : left.Coherent) (hsettled : left.AllSettled)
    (hsettled' : right.AllSettled) (hplain : left.plain = right.plain) :
    left.documents = right.documents ∧ left.registry = right.registry ∧
      left.copies = right.copies ∧ left.sessions = right.sessions := by
  have hdocuments : left.documents = right.documents := by
    rw [← hsettled.documents_plain, ← hsettled'.documents_plain]
    exact congrArg Workspace.documents hplain
  have hactive : left.registry.active = right.registry.active := by
    refine Table.eq_of_map_eq (congrArg (fun w => w.registry.active) hplain) ?_
    intro copy tracer other hfound hfound' hsame
    have hsource : tracer.plain.source = other.plain.source := congrArg Tracer.source hsame
    obtain ⟨original, horiginal, hcopy⟩ := h.tracer_source_open hfound
    obtain ⟨hstaged, hbaseline⟩ := (hsettled _ _ horiginal hcopy).tracer hfound rfl
    obtain ⟨hstaged', hbaseline'⟩ := (hsettled' _ _ (hdocuments ▸ horiginal) hcopy).tracer hfound'
      hsource.symm
    exact Tracer.eq_of_plain_eq hsame hstaged hstaged' (hbaseline.trans hbaseline'.symm)
  have hsessions : left.sessions = right.sessions := by
    refine Table.eq_of_map_eq (congrArg Workspace.sessions hplain) ?_
    intro copy session other hfound hfound' hsame
    have hsource : session.plain.source = other.plain.source := congrArg Session.source hsame
    have hmarks : session.plain.marks = other.plain.marks := congrArg Session.marks hsame
    obtain ⟨tracer, hlive, hto⟩ := h.exists_tracer hfound
    obtain ⟨original, horiginal, hcopy⟩ := h.tracer_source_open hlive
    have hframe := (hsettled _ _ horiginal hcopy).session hfound hto
    have hframe' := (hsettled' _ _ (hdocuments ▸ horiginal) hcopy).session hfound'
      (hsource.symm.trans hto)
    cases session
    cases other
    cases hsource
    cases hmarks
    exact congrArg (Session.mk _ _) (hframe.trans hframe'.symm)
  have hcopies : left.plain.copies = right.plain.copies := congrArg Workspace.copies hplain
  have hlast : left.registry.lastGeneration = right.registry.lastGeneration :=
    congrArg (fun w => w.registry.lastGeneration) hplain
  refine ⟨hdocuments, ?_, hcopies, hsessions⟩
  exact (congrArg (fun active => Registry.mk active left.registry.lastGeneration) hactive).trans
    (congrArg (Registry.mk right.registry.active) hlast)

/-! ### Two runs -/

theorem answered_of_commits {front back : List Call}
    (hcommits : ∀ call ∈ front, call.isCommit = true) :
    workspace.answered (front ++ back) = (workspace.after front).answered back := by
  induction front generalizing workspace with
  | nil => rfl
  | cons call rest ih =>
      rw [List.forall_mem_cons] at hcommits
      rw [List.cons_append, answered_cons, if_pos hcommits.1, ih hcommits.2, after_cons]

theorem isCommit_of_mem_commitAfter {reply : Reply} {later : Call}
    (hmem : later ∈ call.commitAfter reply) : later.isCommit = true := by
  unfold Call.commitAfter at hmem
  split at hmem
  · rw [List.mem_singleton.1 hmem]
    rfl
  · rw [List.mem_singleton.1 hmem]
    rfl
  · cases hmem

theorem Dated.answered_committing (h : workspace.Dated) (hpolicy : workspace.policy = .everyEdit)
    (calls : List Call) :
    (workspace.withPolicy .stampAdvanced).answered
        ((workspace.withPolicy .stampAdvanced).committing calls) = workspace.answered calls := by
  induction calls generalizing workspace with
  | nil => rfl
  | cons call rest ih =>
      obtain ⟨hreply, hstep⟩ := h.step_everyEdit hpolicy call
      have hrest := ih (h.step call) ((workspace.policy_step call).trans hpolicy)
      rw [committing, answered_cons, answered_cons,
        answered_of_commits fun _ hmem => isCommit_of_mem_commitAfter hmem, hstep, hrest, hreply]

theorem besidesCommits_append_commits (calls : List Call) (sources : List DocumentId) :
    besidesCommits (calls ++ sources.map Call.commit) = besidesCommits calls := by
  have hnone : (sources.map Call.commit).filter (fun call => !call.isCommit) = [] := by
    simp [Call.isCommit, Call.committed?]
  rw [besidesCommits, List.filter_append, hnone, List.append_nil]
  rfl

theorem isOwn_append_commits (hown : ∀ call ∈ calls, call.isOwn = true)
    (sources : List DocumentId) :
    ∀ call ∈ calls ++ sources.map Call.commit, call.isOwn = true := by
  refine List.forall_mem_append.2 ⟨hown, ?_⟩
  intro call hmem
  obtain ⟨id, -, rfl⟩ := List.mem_map.1 hmem
  rfl

/-- What a run comes to that ends with a commit of every open source. -/
theorem run_committed (mode : CommitMode) (config : Config)
    (hown : ∀ call ∈ calls, call.isOwn = true)
    (hcommits : (initial config mode.policy).CommitsSources (calls ++ sources.map Call.commit))
    (hall : ∀ id document, ((initial config mode.policy).after calls).documents.find? id =
      some document → document.copyOf = none → id ∈ sources) :
    let workspace := (initial config mode.policy).after (calls ++ sources.map Call.commit)
    workspace.Coherent ∧ workspace.AllSettled := by
  intro workspace
  have h := (coherent_initial config mode.policy).after (isOwn_append_commits hown sources)
  have hcoherent := (coherent_initial config mode.policy).after hown
  have hdated := (dated_initial config mode.policy).after calls
  have hpolicy : ((initial config mode.policy).after calls).policy.MergesNewer := by
    rw [policy_after]
    exact mode.mergesNewer_policy
  have hsettled := allSettled_after_commits hcoherent hdated hpolicy
    (commitsSources_append.1 hcommits).2 hall
  rw [← after_append] at hsettled
  exact ⟨h, hsettled⟩

/-- **Where commits are placed does not matter.**  Two runs from empty workspaces with one dummy
identifier, each under a policy that the settings offer, make the same calls besides commits.  They
commit sources at any places, and at the end every open source.  Then all calls besides the commits
have the same replies in both runs, and both end with the same documents, tracers, copies and
sessions, and with nothing staged.  In particular the policy `everyEdit` is the policy
`stampAdvanced` with a commit after every edit: at every point the workspaces are equal, the policy
apart. -/
theorem commits_anywhere (mode mode' : CommitMode) {config config' : Config}
    (hdummy : config.dummyIdentifier = config'.dummyIdentifier) {calls calls' : List Call}
    {sources sources' : List DocumentId} (hown : ∀ call ∈ calls, call.isOwn = true)
    (hown' : ∀ call ∈ calls', call.isOwn = true)
    (hsame : besidesCommits calls = besidesCommits calls')
    (hcommits : (initial config mode.policy).CommitsSources (calls ++ sources.map Call.commit))
    (hcommits' :
      (initial config' mode'.policy).CommitsSources (calls' ++ sources'.map Call.commit))
    (hall : ∀ id document, ((initial config mode.policy).after calls).documents.find? id =
      some document → document.copyOf = none → id ∈ sources)
    (hall' : ∀ id document, ((initial config' mode'.policy).after calls').documents.find? id =
      some document → document.copyOf = none → id ∈ sources') :
    let left := (initial config mode.policy).after (calls ++ sources.map Call.commit)
    let right := (initial config' mode'.policy).after (calls' ++ sources'.map Call.commit)
    (initial config mode.policy).answered (calls ++ sources.map Call.commit) =
        (initial config' mode'.policy).answered (calls' ++ sources'.map Call.commit) ∧
      (left.documents = right.documents ∧ left.registry = right.registry ∧
        left.copies = right.copies ∧ left.sessions = right.sessions) ∧
      (∀ copy tracer, left.registry.activeFor? copy = some tracer → tracer.staged = []) ∧
      ∀ (config : Config) (steps : List Call),
        let waiting := initial config .stampAdvanced
        let eager := initial config .everyEdit
        waiting.after (waiting.committing steps) = (eager.after steps).withPolicy .stampAdvanced ∧
          waiting.answered (waiting.committing steps) = eager.answered steps := by
  intro left right
  have hstart : (initial config mode.policy).plain = (initial config' mode'.policy).plain := by
    cases config
    cases config'
    cases hdummy
    rfl
  have hbesides : besidesCommits (calls ++ sources.map Call.commit) =
      besidesCommits (calls' ++ sources'.map Call.commit) := by
    rw [besidesCommits_append_commits, besidesCommits_append_commits, hsame]
  obtain ⟨hplain, hanswered⟩ := plain_after hstart (isOwn_append_commits hown sources) hcommits
  obtain ⟨hplain', hanswered'⟩ := plain_after rfl (isOwn_append_commits hown' sources') hcommits'
  rw [hbesides] at hplain hanswered
  obtain ⟨h, hsettled⟩ := run_committed mode config hown hcommits hall
  obtain ⟨-, hsettled'⟩ := run_committed mode' config' hown' hcommits' hall'
  refine ⟨hanswered.trans hanswered'.symm,
    eq_of_plain_eq h hsettled hsettled' (hplain.trans hplain'.symm), ?_, ?_⟩
  · intro copy tracer hactive
    obtain ⟨original, horiginal, hcopy⟩ := h.tracer_source_open hactive
    exact ((hsettled _ _ horiginal hcopy).tracer hactive rfl).1
  · intro config steps waiting eager
    have hdated : eager.Dated := dated_initial config .everyEdit
    exact ⟨hdated.after_committing rfl steps, hdated.answered_committing rfl steps⟩

/-- One run commits before the copy is made and then not until the end.  The other commits after
every edit, and also on its own when the copy has just been made and before its source is open. -/
theorem commits_anywhere_around_start :
    let before : List Call := [.openDocument "/a" "ab", .openDocument "/b" "x",
      .edit ⟨0⟩ ⟨2, 2, Nat.le_refl 2⟩ "c"]
    let asked : Call := .start ⟨0⟩ ⟨3, 3, Nat.le_refl 3⟩ "X"
    let edits : List Call := [.edit ⟨0⟩ ⟨0, 0, Nat.le_refl 0⟩ "é\n",
      .edit ⟨1⟩ ⟨0, 1, Nat.zero_le 1⟩ ""]
    let calls : List Call := before ++ [.commit ⟨0⟩, asked] ++ edits
    let calls' : List Call := [.commit ⟨1⟩] ++ before ++ [asked, .commit ⟨0⟩] ++ edits
    let sources : List DocumentId := [⟨0⟩, ⟨1⟩]
    let sources' : List DocumentId := [⟨1⟩, ⟨0⟩]
    let config : Config := ⟨"X", .onStampAdvance⟩
    let config' : Config := ⟨"X", .everyEdit⟩
    let start := initial config .stampAdvanced
    let start' := initial config' .everyEdit
    let left := start.after (calls ++ sources.map Call.commit)
    let right := start'.after (calls' ++ sources'.map Call.commit)
    config.dummyIdentifier = config'.dummyIdentifier ∧
      (∀ call ∈ calls, call.isOwn = true) ∧ (∀ call ∈ calls', call.isOwn = true) ∧
      besidesCommits calls = besidesCommits calls' ∧
      start.CommitsSources (calls ++ sources.map Call.commit) ∧
      start'.CommitsSources (calls' ++ sources'.map Call.commit) ∧
      (∀ id document, (start.after calls).documents.find? id = some document →
        document.copyOf = none → id ∈ sources) ∧
      (∀ id document, (start'.after calls').documents.find? id = some document →
        document.copyOf = none → id ∈ sources') ∧
      (start.after calls).registry ≠ (start'.after calls').registry ∧
      left.registry.activeFor? ⟨2⟩ =
        some ⟨⟨1⟩, ⟨2⟩, ⟨0⟩, ⟨⟨3, "", "X"⟩, [⟨0, "é\n", ""⟩]⟩, [], ⟨2⟩⟩ ∧
      left.registry = right.registry ∧ left.sessions = right.sessions ∧
      start.answered (calls ++ sources.map Call.commit) =
        start'.answered (calls' ++ sources'.map Call.commit) := by
  intro before asked edits calls calls' sources sources' config config' start start' left right
  have hdummy : config.dummyIdentifier = config'.dummyIdentifier := rfl
  have hown : ∀ call ∈ calls, call.isOwn = true := by decide
  have hown' : ∀ call ∈ calls', call.isOwn = true := by decide
  have hsame : besidesCommits calls = besidesCommits calls' := by decide
  have hcommits : start.CommitsSources (calls ++ sources.map Call.commit) := by decide
  have hcommits' : start'.CommitsSources (calls' ++ sources'.map Call.commit) := by decide
  have hentries : ∀ entry ∈ (start.after calls).documents.documents.entries,
      entry.2.copyOf = none → entry.1 ∈ sources := by decide
  have hentries' : ∀ entry ∈ (start'.after calls').documents.documents.entries,
      entry.2.copyOf = none → entry.1 ∈ sources' := by decide
  have hall : ∀ id document, (start.after calls).documents.find? id = some document →
      document.copyOf = none → id ∈ sources :=
    fun _ _ hopen => hentries _ (Table.find?_eq_some_iff.1 hopen)
  have hall' : ∀ id document, (start'.after calls').documents.find? id = some document →
      document.copyOf = none → id ∈ sources' :=
    fun _ _ hopen => hentries' _ (Table.find?_eq_some_iff.1 hopen)
  obtain ⟨hanswered, ⟨-, hregistry, -, hsessions⟩, -, -⟩ :=
    commits_anywhere .onStampAdvance .everyEdit hdummy hown hown' hsame hcommits hcommits'
      hall hall'
  exact ⟨hdummy, hown, hown', hsame, hcommits, hcommits', hall, hall', by decide, by decide,
    hregistry, hsessions, hanswered⟩

end Retrace.Workspace
