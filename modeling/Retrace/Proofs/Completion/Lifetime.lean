import Retrace.Proofs.Completion.Answers
import Retrace.Proofs.Completion.Failure

/-!
# How long a handle is live

A handle is live from the start that returns it until a call ends its session.  `Call.ends` says
which calls those are, from the handle, its source and the path of the source alone: no table of
the workspace is asked.

For each operation, one lemma says exactly which handles are live after it.  Together they
describe a call (`Coherent.liveOn_step`).  A source keeps its path while a session on it lives, so
the description of a call carries over to runs by induction (`Coherent.liveOn_after`), and the
lifetime of a handle can be read off the calls after its start (`isUpToDate_iff_not_ended`).
-/

namespace Retrace.Workspace

variable {workspace changed placed : Workspace} {source copy id : DocumentId} {handle : Handle}
  {tracer : Tracer} {document : Document} {call : Call} {calls : List Call} {event : Option Event}

/-- The handle means a live tracer to the source. -/
def LiveOn (workspace : Workspace) (handle : Handle) (source : DocumentId) : Prop :=
  ∃ tracer, workspace.registry.find? handle = some tracer ∧ tracer.source = source

theorem liveOn_iff : workspace.LiveOn handle source ↔
    ∃ tracer, workspace.registry.activeFor? handle.copy = some tracer ∧
      tracer.id = handle.generation ∧ tracer.source = source := by
  simp only [LiveOn, Registry.find?_eq_some_iff, and_assoc]

theorem LiveOn.source_eq {other : DocumentId} (h : workspace.LiveOn handle source)
    (h' : workspace.LiveOn handle other) : source = other := by
  obtain ⟨tracer, hfind, rfl⟩ := h
  obtain ⟨tracer', hfind', rfl⟩ := h'
  rw [hfind, Option.some.injEq] at hfind'
  rw [hfind']

/-- The path under which a document is open. -/
def path? (workspace : Workspace) (id : DocumentId) : Option String :=
  (workspace.documents.find? id).bind Document.path

theorem path?_of_open (hopen : workspace.documents.find? id = some document) :
    workspace.path? id = document.path := by
  rw [path?, hopen]
  rfl

theorem Coherent.path?_eq_some_iff (h : workspace.Coherent) {path : String} :
    workspace.path? id = some path ↔ workspace.documents.idForPath? path = some id := by
  rw [h.sound.path_iff, path?, Option.bind_eq_some_iff]

/-- The copy of a live handle is an open copy of its source, and the source is open and is no
copy. -/
theorem Coherent.documents_of_liveOn (h : workspace.Coherent)
    (hlive : workspace.LiveOn handle source) :
    ∃ original copied, workspace.documents.find? source = some original ∧
      original.copyOf = none ∧ workspace.documents.find? handle.copy = some copied ∧
      copied.copyOf = some source := by
  obtain ⟨tracer, hactive, -, rfl⟩ := liveOn_iff.1 hlive
  exact h.exists_documents hactive

theorem Coherent.isUpToDate_iff (h : workspace.Coherent) :
    workspace.isUpToDate handle = true ↔ ∃ source, workspace.LiveOn handle source := by
  unfold isUpToDate
  rw [Option.isSome_iff_exists]
  constructor
  · rintro ⟨tracer, hlive⟩
    obtain ⟨hfind, -⟩ := Option.filter_eq_some_iff.1 hlive
    exact ⟨tracer.source, tracer, hfind, rfl⟩
  · rintro ⟨source, hlive⟩
    obtain ⟨original, copied, horiginal, -⟩ := h.documents_of_liveOn hlive
    obtain ⟨tracer, hfind, rfl⟩ := hlive
    refine ⟨tracer, Option.filter_eq_some_iff.2 ⟨hfind, ?_⟩⟩
    simp [Store.contains, horiginal]

/-! ### Operations one by one -/

theorem liveOn_endSessionsOn : (workspace.endSessionsOn id).LiveOn handle source ↔
    workspace.LiveOn handle source ∧ source ≠ id := by
  simp only [liveOn_iff, activeFor?_endSessionsOn, Option.filter_eq_some_iff, decide_eq_true_eq]
  constructor
  · rintro ⟨tracer, ⟨hactive, hne⟩, hid, rfl⟩
    exact ⟨⟨tracer, hactive, hid, rfl⟩, hne⟩
  · rintro ⟨⟨tracer, hactive, hid, rfl⟩, hne⟩
    exact ⟨tracer, ⟨hactive, hne⟩, hid, rfl⟩

theorem liveOn_withoutSession : (workspace.withoutSession id).LiveOn handle source ↔
    workspace.LiveOn handle source ∧ handle.copy ≠ id := by
  simp only [liveOn_iff, activeFor?_withoutSession]
  by_cases hcopy : handle.copy = id
  · simp [hcopy]
  · simp [hcopy]

theorem liveOn_dispose {disposed : Handle} :
    (workspace.dispose disposed).2.LiveOn handle source ↔
      workspace.LiveOn handle source ∧ disposed ≠ handle := by
  rcases workspace.dispose_cases disposed with ⟨hnone, heq⟩ | ⟨tracer, hfind, heq⟩
  · rw [heq, iff_self_and]
    rintro ⟨tracer, hfind, -⟩ rfl
    rw [hnone] at hfind
    cases hfind
  · rw [heq, liveOn_withoutSession]
    apply and_congr_right
    rintro ⟨live, hlive, -⟩
    rw [Registry.find?_eq_some_iff] at hfind hlive
    constructor
    · rintro hne rfl
      exact hne rfl
    · intro hne hcopy
      -- a copy has one live tracer, and with it one live handle
      rw [hcopy, hfind.1, Option.some.injEq] at hlive
      apply hne
      obtain ⟨rfl, hid⟩ := hlive
      rw [hfind.2] at hid
      cases handle
      cases disposed
      simp_all

theorem not_liveOn_disposeAll : ¬ workspace.disposeAll.LiveOn handle source := by
  rw [liveOn_iff]
  rintro ⟨tracer, hactive, -⟩
  cases hactive

theorem Keeps.liveOn_iff (h : Keeps workspace changed) :
    changed.LiveOn handle source ↔ workspace.LiveOn handle source := by
  have hmap : ∀ w : Workspace, w.LiveOn handle source ↔ ∃ link,
      (w.registry.activeFor? handle.copy).map (fun t => (t.handle, t.source)) = some link ∧
        link.1.generation = handle.generation ∧ link.2 = source := by
    intro w
    rw [Workspace.liveOn_iff]
    constructor
    · rintro ⟨tracer, hactive, hid, hsource⟩
      exact ⟨(tracer.handle, tracer.source), by rw [hactive]; rfl, hid, hsource⟩
    · rintro ⟨link, hlink, hid, hsource⟩
      obtain ⟨tracer, hactive, rfl⟩ := Option.map_eq_some_iff.1 hlink
      exact ⟨tracer, hactive, hid, hsource⟩
  rw [hmap, hmap, h.tracer]

theorem Coherent.liveOn_commit (h : workspace.Coherent) :
    (workspace.commit id).2.LiveOn handle source ↔ workspace.LiveOn handle source := by
  rcases workspace.commit_cases id with ⟨-, heq⟩ | ⟨document, count, hopen, heq⟩
  · rw [heq]
    rfl
  · rw [heq]
    exact (h.keeps_withCommit hopen).liveOn_iff

theorem Coherent.liveOn_noteEdit (h : workspace.Coherent) {edit : Edit} :
    (workspace.noteEdit id edit).2.LiveOn handle source ↔ workspace.LiveOn handle source := by
  rcases workspace.noteEdit_cases id edit with
    ⟨failure, heq⟩ | ⟨document, edited, hopen, -, happly, hmade⟩
  · rw [heq]
  · have hkeeps := h.keeps_withEdit hopen happly
    rcases hmade with ⟨fault, -, heq⟩ | ⟨-, heq⟩ | ⟨-, heq⟩
    · rw [heq]
      exact hkeeps.liveOn_iff
    · rw [heq]
      exact hkeeps.liveOn_iff
    · rw [heq]
      have hagain := (hkeeps.coherent h).keeps_withCommit find?_source_withEdit
      exact hagain.liveOn_iff.trans hkeeps.liveOn_iff

theorem Coherent.liveOn_edit (h : workspace.Coherent) {span : Span} {text : String} :
    (workspace.edit id span text).2.LiveOn handle source ↔ workspace.LiveOn handle source := by
  rcases workspace.edit_cases id span text with ⟨refusal, heq⟩ | ⟨document, parts, -, -, heq⟩
  · rw [heq]
    rfl
  · rw [heq]
    exact h.liveOn_noteEdit

/-- A new tracer supersedes the sessions on its source and no other ones. -/
theorem Coherent.liveOn_withTracer (h : workspace.Coherent) {text : String} {creation : Edit}
    {session : Session} (hplaced : Placed workspace id text copy placed)
    (htracer : tracer = .start ⟨workspace.registry.lastGeneration + 1⟩ copy id creation
      document.committed)
    (hissued : handle.generation.number ≤ workspace.registry.lastGeneration) :
    (placed.withTracer tracer session).LiveOn handle source ↔
      workspace.LiveOn handle source ∧ source ≠ id := by
  have hcopy : tracer.copy = copy := by
    rw [htracer]
    rfl
  have hactive : (placed.withTracer tracer session).registry.activeFor? handle.copy =
      if handle.copy = copy then some tracer
      else workspace.registry.activeFor? handle.copy := by
    rw [activeFor?_withTracer, hcopy, hplaced.registry]
  rw [liveOn_iff, hactive]
  by_cases hsame : handle.copy = copy
  · rw [if_pos hsame]
    constructor
    · rintro ⟨found, hfound, hid, -⟩
      -- the number of the new tracer was not given out before
      cases hfound
      rw [htracer] at hid
      rw [← hid] at hissued
      exact absurd hissued (Nat.not_succ_le_self _)
    · rintro ⟨hlive, hne⟩
      obtain ⟨-, copied, -, -, hcopied, hof⟩ := h.documents_of_liveOn hlive
      rw [hsame] at hcopied
      rw [hplaced.copyOf_old h hcopied, Option.some.injEq] at hof
      exact absurd hof.symm hne
  · rw [if_neg hsame, ← liveOn_iff, iff_self_and]
    rintro hlive rfl
    -- the open copy of the source is the one in which the text is placed
    obtain ⟨-, copied, -, -, hcopied, hof⟩ := h.documents_of_liveOn hlive
    exact hsame (hplaced.eq_copy (h.copy_listed hcopied hof) hcopied)

theorem Coherent.liveOn_start (h : workspace.Coherent) {span : Span} {replacement : String}
    (hissued : handle.generation.number ≤ workspace.registry.lastGeneration) :
    (workspace.start id span replacement).2.LiveOn handle source ↔
      workspace.LiveOn handle source ∧
        ∀ completion, (workspace.start id span replacement).1 = .ok completion → id ≠ source := by
  rcases workspace.start_cases id span replacement with
    ⟨refusal, heq⟩ | ⟨document, parts, copy, placed, -, -, -, hplaced, heq⟩
  · rw [heq]
    simp [refuse]
  · rw [heq]
    simp only [Except.ok.injEq, forall_eq']
    rw [h.liveOn_withTracer hplaced rfl hissued, ne_comm]

theorem Coherent.liveOn_startAt (h : workspace.Coherent) {caret : Nat}
    (hissued : handle.generation.number ≤ workspace.registry.lastGeneration) :
    (workspace.startAt id caret).2.LiveOn handle source ↔
      workspace.LiveOn handle source ∧
        ∀ completion, (workspace.startAt id caret).1 = .ok completion → id ≠ source := by
  rcases workspace.startAt_cases id caret with ⟨failure, heq⟩ | ⟨document, span, -, -, heq⟩
  · rw [heq]
    simp
  · rw [heq]
    exact h.liveOn_start hissued

theorem Coherent.liveOn_openDocument (h : workspace.Coherent) {path text : String} :
    (workspace.openDocument path text).2.LiveOn handle source ↔
      workspace.LiveOn handle source ∧ workspace.path? source ≠ some path := by
  rw [ne_eq, h.path?_eq_some_iff]
  rcases workspace.openDocument_cases path text with
    ⟨id, document, hid, -, -, heq⟩ | ⟨hnone, heq⟩
  · rw [heq, hid, Option.some.injEq, ← ne_eq, ne_comm]
    exact liveOn_endSessionsOn
  · rw [heq]
    change workspace.LiveOn handle source ↔ _
    rw [iff_self_and]
    intro hlive hid
    obtain ⟨original, copied, horiginal, hnocopy, -⟩ := h.documents_of_liveOn hlive
    exact hnone source original hid horiginal hnocopy

theorem Coherent.liveOn_closeDocument (h : workspace.Coherent) :
    (workspace.closeDocument id).2.LiveOn handle source ↔
      workspace.LiveOn handle source ∧ id ≠ source ∧ id ≠ handle.copy := by
  rcases workspace.closeDocument_cases id with
    ⟨hclosed, heq⟩ | ⟨document, hopen, hnocopy, heq⟩ | ⟨document, of, hopen, hcopy, hmade⟩
  · rw [heq, iff_self_and]
    intro hlive
    obtain ⟨original, copied, horiginal, -, hcopied, -⟩ := h.documents_of_liveOn hlive
    constructor
    · rintro rfl
      rw [hclosed] at horiginal
      cases horiginal
    · intro hid
      rw [← hid, hclosed] at hcopied
      cases hcopied
  · rw [heq, liveOn_endSessionsOn]
    apply and_congr_right
    intro hlive
    obtain ⟨original, copied, -, -, hcopied, hof⟩ := h.documents_of_liveOn hlive
    have hne : id ≠ handle.copy := ne_of_copyOf_ne hopen hcopied (by simp [hnocopy, hof])
    rw [ne_comm, and_iff_left hne]
  · -- a copy is not a source, so only its own session can end
    have hsource : workspace.LiveOn handle source → id ≠ source := by
      intro hlive
      obtain ⟨original, copied, horiginal, hnocopy, -⟩ := h.documents_of_liveOn hlive
      exact ne_of_copyOf_ne hopen horiginal (by simp [hcopy, hnocopy])
    rcases hmade with ⟨hidle, heq⟩ | ⟨tracer, -, heq⟩
    · rw [heq]
      change workspace.LiveOn handle source ↔ _
      rw [iff_self_and]
      intro hlive
      refine ⟨hsource hlive, ?_⟩
      intro hid
      obtain ⟨tracer, hactive, -⟩ := liveOn_iff.1 hlive
      rw [← hid, hidle] at hactive
      cases hactive
    · rw [heq, liveOn_withoutSession]
      apply and_congr_right
      intro hlive
      rw [and_iff_right (hsource hlive), ne_comm]

/-! ### Calls -/

/-- The calls that end the session of a handle on a source that is open under a path: the path is
opened anew, the source or the copy is closed, another completion starts on the source, or the
session is disposed of, alone or with all others. -/
def Call.ends (handle : Handle) (source : DocumentId) (path : Option String) :
    Call → Reply → Bool
  | .openDocument opened _, _ => path = some opened
  | .closeDocument id, _ => id = source ∨ id = handle.copy
  | .start id _ _, .started _ => id = source
  | .startAt id _, .started _ => id = source
  | .dispose disposed, _ => disposed = handle
  | .disposeAll, _ => true
  | _, _ => false

/-- A handle is live after a call exactly if it was live before and the call did not end its
session. -/
theorem Coherent.liveOn_step (h : workspace.Coherent) (hown : call.isOwn = true)
    (hissued : handle.generation.number ≤ workspace.registry.lastGeneration) :
    (workspace.step call).2.LiveOn handle source ↔
      workspace.LiveOn handle source ∧
        call.ends handle source (workspace.path? source) (workspace.step call).1 = false := by
  cases call with
  | openDocument path text =>
      simp only [Workspace.step, Call.ends, decide_eq_false_iff_not]
      exact h.liveOn_openDocument
  | closeDocument id =>
      simp only [Workspace.step, Call.ends, decide_eq_false_iff_not, not_or]
      exact h.liveOn_closeDocument
  | noteEdit id edit =>
      simp only [Workspace.step, Call.ends, and_true]
      exact h.liveOn_noteEdit
  | edit id span text =>
      simp only [Workspace.step, Call.ends, and_true]
      exact h.liveOn_edit
  | commit id =>
      simp only [Workspace.step, Call.ends, and_true]
      exact h.liveOn_commit
  | start id span replacement =>
      simp only [Workspace.step]
      rw [h.liveOn_start hissued]
      rcases (workspace.start id span replacement).1 with failure | completion
      · simp [Call.ends, Reply.ofAnswer]
      · simp [Call.ends, Reply.ofAnswer]
  | startAt id caret =>
      simp only [Workspace.step]
      rw [h.liveOn_startAt hissued]
      rcases (workspace.startAt id caret).1 with failure | completion
      · simp [Call.ends, Reply.ofAnswer]
      · simp [Call.ends, Reply.ofAnswer]
  | dispose disposed =>
      simp only [Workspace.step, Call.ends, decide_eq_false_iff_not]
      exact liveOn_dispose
  | disposeAll =>
      simp only [Workspace.step, Call.ends, Bool.true_eq_false, and_false, iff_false]
      exact not_liveOn_disposeAll
  | onDocuments call => cases hown

/-! ### Paths -/

/-- A document that is open before and after a change keeps its path. -/
theorem Change.path_eq {later : Document} (hchange : Change workspace event changed)
    (h : workspace.Coherent) (hopen : workspace.documents.find? id = some document)
    (hlater : changed.documents.find? id = some later) : later.path = document.path := by
  cases hchange with
  | shrunk hshrinks =>
      rw [hshrinks.find?_eq_some hlater, Option.some.injEq] at hopen
      rw [hopen]
  | opened hfree =>
      rw [Store.find?_openFresh, if_neg (h.sound.ne_next hopen), hopen, Option.some.injEq] at hlater
      rw [hlater]
  | rewritten hfound hnocopy hidle => exact Store.path_eq_of_put hfound hopen hlater rfl
  | edited hfound hnocopy happly =>
      obtain ⟨-, text, -, rfl⟩ := Document.apply_eq_ok_iff.1 happly
      exact Store.path_eq_of_put hfound hopen hlater rfl
  | committed hfound => exact Store.path_eq_of_put hfound hopen hlater rfl
  | @started _ _ _ _ _ _ placed _ hfound hnocopy hcut hplaced htracer =>
      have hview : placed.documents.find? id = some later := hlater
      rcases hplaced.documents with ⟨old, -, hold, heq⟩ | ⟨-, -, heq⟩
      · rw [heq] at hview
        exact Store.path_eq_of_put hold hopen hview rfl
      · rw [heq, Store.find?_add, if_neg (h.sound.ne_next hopen), hopen,
          Option.some.injEq] at hview
        rw [hview]

/-- The source keeps its path while the session lives. -/
theorem Coherent.path?_step (h : workspace.Coherent) (hown : call.isOwn = true)
    (hlive : workspace.LiveOn handle source)
    (hafter : (workspace.step call).2.LiveOn handle source) :
    (workspace.step call).2.path? source = workspace.path? source := by
  obtain ⟨event, -, hadvances⟩ := h.step_advances hown
  obtain ⟨original, -, horiginal, -⟩ := h.documents_of_liveOn hlive
  obtain ⟨later, -, hlater, -⟩ := (h.step hown).documents_of_liveOn hafter
  rw [path?_of_open horiginal, path?_of_open hlater]
  cases hadvances with
  | same hevent heq =>
      rw [heq, horiginal, Option.some.injEq] at hlater
      rw [hlater]
  | single hchange => exact hchange.path_eq h horiginal hlater
  | double hchange hagain hfits =>
      -- the tracer is live in between, and so the source is open
      have hmiddle := h.change hchange
      obtain ⟨tracer, hactive, -, rfl⟩ := liveOn_iff.1 hafter
      obtain ⟨old, hold, hgrows, -⟩ := (hmiddle.followed_change hagain hactive).quiet
      obtain ⟨between, hbetween, -⟩ := hmiddle.tracer_source_open hold
      rw [← hgrows.source] at hbetween
      exact (hagain.path_eq hmiddle hbetween hlater).trans (hchange.path_eq h horiginal hbetween)

/-! ### Runs -/

/-- A handle is live after a run exactly if it was live before and no call of the run ended its
session. -/
theorem Coherent.liveOn_after (h : workspace.Coherent)
    (hown : ∀ call ∈ calls, call.isOwn = true)
    (hissued : handle.generation.number ≤ workspace.registry.lastGeneration) :
    (workspace.after calls).LiveOn handle source ↔
      workspace.LiveOn handle source ∧
        ∀ made ∈ calls.zip (workspace.run calls).1,
          made.1.ends handle source (workspace.path? source) made.2 = false := by
  induction calls generalizing workspace with
  | nil => simp
  | cons call rest ih =>
      rw [List.forall_mem_cons] at hown
      obtain ⟨event, -, hadvances⟩ := h.step_advances hown.1
      have hrest := ih (h.step hown.1) hown.2
        (Nat.le_trans hissued hadvances.lastGeneration_le)
      have hzip : (call :: rest).zip (workspace.run (call :: rest)).1 =
          (call, (workspace.step call).1) :: rest.zip ((workspace.step call).2.run rest).1 := rfl
      rw [after_cons, hrest, hzip, List.forall_mem_cons, ← and_assoc,
        ← h.liveOn_step hown.1 hissued]
      apply and_congr_right
      intro hlive
      obtain ⟨hbefore, -⟩ := (h.liveOn_step hown.1 hissued).1 hlive
      rw [h.path?_step hown.1 hbefore hlive]

/-- The document on which a call starts a completion. -/
def Call.startsOn : Call → Option DocumentId
  | .start source _ _ => some source
  | .startAt source _ => some source
  | _ => none

/-- A completion has been started.  Its text is placed in a copy of the source, and a tracer under
the next generation is live on the copy. -/
def Launches (workspace : Workspace) (completion : Completion) (changed : Workspace) : Prop :=
  ∃ document creation placed session,
    workspace.documents.find? completion.source = some document ∧ document.copyOf = none ∧
    Placed workspace completion.source completion.text completion.copy placed ∧
    completion.handle = ⟨completion.copy, ⟨workspace.registry.lastGeneration + 1⟩⟩ ∧
    changed = placed.withTracer (.start ⟨workspace.registry.lastGeneration + 1⟩ completion.copy
      completion.source creation document.committed) session

theorem launches_of_start {span : Span} {replacement : String} {completion : Completion}
    (hstart : (workspace.start source span replacement).1 = .ok completion) :
    completion.source = source ∧
      workspace.Launches completion (workspace.start source span replacement).2 := by
  rcases workspace.start_cases source span replacement with
    ⟨refusal, heq⟩ | ⟨document, parts, copy, placed, hopen, hnocopy, -, hplaced, heq⟩
  · rw [heq] at hstart
    cases hstart
  · rw [heq] at hstart ⊢
    cases hstart
    exact ⟨rfl, document, _, placed, _, hopen, hnocopy, hplaced, rfl, rfl⟩

/-- Only a call that starts a completion returns one. -/
theorem launches_of_started {completion : Completion}
    (hreply : (workspace.step call).1 = .started completion) :
    call.startsOn = some completion.source ∧
      workspace.Launches completion (workspace.step call).2 := by
  cases call with
  | start id span replacement =>
      obtain ⟨rfl, hlaunches⟩ := launches_of_start (Reply.ofAnswer_eq_started hreply)
      exact ⟨rfl, hlaunches⟩
  | startAt id caret =>
      simp only [Workspace.step] at hreply ⊢
      rcases workspace.startAt_cases id caret with ⟨failure, heq⟩ | ⟨_, span, -, -, heq⟩
      · rw [heq] at hreply
        cases hreply
      · rw [heq] at hreply ⊢
        obtain ⟨rfl, hlaunches⟩ := launches_of_start (Reply.ofAnswer_eq_started hreply)
        exact ⟨rfl, hlaunches⟩
  | openDocument path text => cases hreply
  | closeDocument id => cases hreply
  | noteEdit id edit => exact absurd hreply (Reply.ofAnswer_ne_started (by simp))
  | edit id span text => exact absurd hreply (Reply.ofAnswer_ne_started (by simp))
  | commit id => exact absurd hreply (Reply.ofAnswer_ne_started (by simp))
  | dispose disposed => cases hreply
  | disposeAll => cases hreply
  | onDocuments call => cases hreply

theorem Launches.liveOn {completion : Completion} (h : workspace.Launches completion changed) :
    changed.LiveOn completion.handle completion.source ∧
      completion.handle.generation.number = changed.registry.lastGeneration := by
  obtain ⟨document, creation, placed, session, -, -, hplaced, hhandle, rfl⟩ := h
  rw [hhandle]
  constructor
  · exact liveOn_iff.2 ⟨_, activeFor?_withTracer.trans (if_pos rfl), rfl, rfl⟩
  · rw [← hplaced.registry]
    rfl

/-- The handle that a call returns is live after the call, on a document that was open before. -/
theorem Coherent.liveOn_step_started (h : workspace.Coherent) {completion : Completion}
    (hon : call.startsOn = some source)
    (hstart : (workspace.step call).1 = .started completion) :
    let started := (workspace.step call).2
    ∃ document, workspace.documents.find? source = some document ∧
      started.LiveOn completion.handle source ∧ started.path? source = document.path ∧
      completion.handle.generation.number ≤ started.registry.lastGeneration := by
  obtain ⟨hsource, hlaunches⟩ := launches_of_started hstart
  rw [hon, Option.some.injEq] at hsource
  subst hsource
  obtain ⟨hlive, hnumber⟩ := hlaunches.liveOn
  obtain ⟨document, creation, placed, session, hopen, hnocopy, hplaced, -, heq⟩ := hlaunches
  refine ⟨document, hopen, hlive, ?_, Nat.le_of_eq hnumber⟩
  rw [heq]
  exact path?_of_open (hplaced.find?_eq_some h hopen hnocopy)

/-! ### Handles that are out of date -/

theorem Coherent.isUpToDate_eq (h : workspace.Coherent) (h' : changed.Coherent)
    (hlive : ∀ source, changed.LiveOn handle source ↔ workspace.LiveOn handle source) :
    changed.isUpToDate handle = workspace.isUpToDate handle := by
  rw [Bool.eq_iff_iff, h.isUpToDate_iff, h'.isUpToDate_iff]
  exact exists_congr hlive

/-- A call that fails ends no session, even if it breaks off. -/
theorem Coherent.liveOn_step_of_failed (h : workspace.Coherent)
    (hfailed : (workspace.step call).1.isRefusal = true ∨
      ∃ failure, (workspace.step call).1 = .failed failure) :
    (workspace.step call).2.LiveOn handle source ↔ workspace.LiveOn handle source := by
  rcases hfailed with hrefused | ⟨failure, hfailed⟩
  · rw [step_of_isRefusal hrefused]
  · cases call with
    | openDocument path text => cases hfailed
    | closeDocument id => cases hfailed
    | noteEdit id edit => exact h.liveOn_noteEdit
    | edit id span text => exact h.liveOn_edit
    | commit id => exact h.liveOn_commit
    | start id span replacement =>
        have hsame := start_of_error (Reply.ofAnswer_eq_failed (by simp) hfailed)
        simp only [Workspace.step, hsame]
    | startAt id caret =>
        have hsame := startAt_of_error (Reply.ofAnswer_eq_failed (by simp) hfailed)
        simp only [Workspace.step, hsame]
    | dispose disposed => cases hfailed
    | disposeAll => cases hfailed
    | onDocuments call => cases hfailed

theorem Coherent.stale_after (h : workspace.Coherent)
    (hown : ∀ call ∈ calls, call.isOwn = true)
    (hissued : handle.generation.number ≤ workspace.registry.lastGeneration)
    (hstale : workspace.isUpToDate handle = false) :
    (workspace.after calls).isUpToDate handle = false := by
  rw [← Bool.not_eq_true, h.isUpToDate_iff] at hstale
  rw [← Bool.not_eq_true, (h.after hown).isUpToDate_iff]
  rintro ⟨source, hlive⟩
  exact hstale ⟨source, ((h.liveOn_after hown hissued).1 hlive).1⟩

theorem Coherent.isSome_marks? (h : workspace.Coherent) :
    (workspace.marks? handle).isSome = workspace.isUpToDate handle := by
  unfold marks? isUpToDate
  rcases hlive : workspace.tracer? handle with _ | tracer
  · rfl
  · obtain ⟨session, hsession, -⟩ := h.exists_session (h.handle_eq hlive).1
    rw [hsession]
    rfl

theorem answers_of_stale (hstale : workspace.isUpToDate handle = false) :
    (∀ offset, workspace.retrace handle offset = .ok none) ∧
      (∀ span, workspace.retraceSpan handle span = .ok none) ∧
      ∀ position, workspace.retracePosition handle position = .ok none := by
  have hnone : workspace.tracer? handle = none :=
    Option.not_isSome_iff_eq_none.1 (Bool.not_eq_true _ ▸ hstale)
  refine ⟨?_, ?_, ?_⟩
  · intro offset
    simp only [retrace, hnone]
  · intro span
    simp only [retraceSpan, hnone]
  · intro position
    simp only [retracePosition, hnone]

/-- **The lifetime of a handle.**  A completion is started in any state that calls of the workspace
reach, and more calls follow.  The handle is live at the end exactly if none of these calls ends its
session: no later completion started on its source, neither it nor all handles were disposed of,
neither its source nor its copy was closed, and the path of the source was not opened anew.  A
handle that is out of date stays so.  A call that fails leaves every handle as it was.  The tracer
and the named offsets of a handle are there exactly while it is live, and one that is out of date
has no answer to any question. -/
theorem isUpToDate_iff_not_ended (config : Config) (policy : CommitPolicy)
    {earlier later : List Call} {completion : Completion}
    (hown : ∀ made ∈ earlier ++ call :: later, made.isOwn = true)
    (hon : call.startsOn = some source)
    (hstart : (((initial config policy).after earlier).step call).1 = .started completion) :
    let before := (initial config policy).after earlier
    let started := (before.step call).2
    let workspace := started.after later
    ∃ document, before.documents.find? source = some document ∧
      (workspace.isUpToDate completion.handle = true ↔
        ∀ made ∈ later.zip (started.run later).1,
          made.1.ends completion.handle source document.path made.2 = false) ∧
      (workspace.isUpToDate completion.handle = false →
        ∀ more : List Call, (∀ made ∈ more, made.isOwn = true) →
          (workspace.after more).isUpToDate completion.handle = false) ∧
      (∀ made : Call, made.isOwn = true →
        ((workspace.step made).1.isRefusal = true ∨
          ∃ failure, (workspace.step made).1 = .failed failure) →
        ∀ handle, (workspace.step made).2.isUpToDate handle = workspace.isUpToDate handle) ∧
      ∀ handle, (workspace.tracer? handle).isSome = workspace.isUpToDate handle ∧
        (workspace.marks? handle).isSome = workspace.isUpToDate handle ∧
        (workspace.isUpToDate handle = false →
          (∀ offset, workspace.retrace handle offset = .ok none) ∧
            (∀ span, workspace.retraceSpan handle span = .ok none) ∧
            ∀ position, workspace.retracePosition handle position = .ok none) := by
  intro before started workspace
  obtain ⟨hearlier, hownCall, hlater⟩ : (∀ made ∈ earlier, made.isOwn = true) ∧
      call.isOwn = true ∧ ∀ made ∈ later, made.isOwn = true := by
    rw [List.forall_mem_append, List.forall_mem_cons] at hown
    exact hown
  have hbefore : before.Coherent := (coherent_initial config policy).after hearlier
  have hstarted : started.Coherent := hbefore.step hownCall
  have h : workspace.Coherent := hstarted.after hlater
  obtain ⟨document, hopen, hlive, hpath, hissued⟩ := hbefore.liveOn_step_started hon hstart
  have hissuedAfter : completion.handle.generation.number ≤ workspace.registry.lastGeneration :=
    Nat.le_trans hissued (hstarted.lastGeneration_le_after hlater)
  refine ⟨document, hopen, ?_, ?_, ?_, ?_⟩
  · rw [h.isUpToDate_iff, ← hpath]
    constructor
    · rintro ⟨other, hother⟩
      obtain ⟨hsame, hends⟩ := (hstarted.liveOn_after hlater hissued).1 hother
      rw [hlive.source_eq hsame]
      exact hends
    · intro hends
      exact ⟨source, (hstarted.liveOn_after hlater hissued).2 ⟨hlive, hends⟩⟩
  · intro hstale more hmore
    exact h.stale_after hmore hissuedAfter hstale
  · intro made hmade hfailed handle
    exact h.isUpToDate_eq (h.step hmade) fun _ => h.liveOn_step_of_failed hfailed
  · intro handle
    exact ⟨rfl, h.isSome_marks?, answers_of_stale⟩

/-- A handle outlives an edit with its commit, a start that fails, a handle that means nothing, and
a completion on another document that is closed and opened anew.  It is out of date as soon as its
own document is opened anew. -/
theorem isUpToDate_until_reopened :
    let earlier : List Call := [.openDocument "/a" "ab", .openDocument "/b" "cd"]
    let call : Call := .start ⟨0⟩ ⟨1, 1, Nat.le_refl 1⟩ "X"
    let completion : Completion := ⟨⟨0⟩, ⟨2⟩, ⟨⟨2⟩, ⟨1⟩⟩, "aXb"⟩
    let later : List Call := [.start ⟨1⟩ ⟨0, 1, Nat.zero_le 1⟩ "Y",
      .edit ⟨0⟩ ⟨0, 1, Nat.zero_le 1⟩ "é", .commit ⟨0⟩, .start ⟨0⟩ ⟨9, 9, Nat.le_refl 9⟩ "Z",
      .dispose ⟨⟨2⟩, ⟨7⟩⟩, .closeDocument ⟨1⟩, .openDocument "/b" "ef"]
    let before := (initial .default .stampAdvanced).after earlier
    let started := (before.step call).2
    (∀ made ∈ earlier ++ call :: (later ++ [.openDocument "/a" "gh"]), made.isOwn = true) ∧
      call.startsOn = some ⟨0⟩ ∧ (before.step call).1 = .started completion ∧
      (started.after later).isUpToDate completion.handle = true ∧
      (started.after (later ++ [.openDocument "/a" "gh"])).isUpToDate completion.handle = false ∧
      (∀ offset, (started.after (later ++ [.openDocument "/a" "gh"])).retrace completion.handle
        offset = .ok none) := by
  intro earlier call completion later before started
  have hownBefore : ∀ made ∈ earlier ++ call :: later, made.isOwn = true := by decide
  have hown : ∀ made ∈ earlier ++ call :: (later ++ [.openDocument "/a" "gh"]),
      made.isOwn = true := by decide
  have hstart : (before.step call).1 = .started completion := by decide
  have hdocument : before.documents.find? ⟨0⟩ =
      some ⟨⟨0⟩, some "/a", "ab", ⟨0⟩, ⟨0⟩, none⟩ := by decide
  obtain ⟨document, hopen, hlive, -⟩ :=
    isUpToDate_iff_not_ended .default .stampAdvanced hownBefore rfl hstart
  obtain ⟨document', hopen', hended, -, -, hquestions⟩ :=
    isUpToDate_iff_not_ended .default .stampAdvanced hown rfl hstart
  rw [hdocument, Option.some.injEq] at hopen hopen'
  subst hopen hopen'
  have hstale : (started.after (later ++ [.openDocument "/a" "gh"])).isUpToDate
      completion.handle = false := by
    rw [← Bool.not_eq_true, hended]
    decide
  exact ⟨hown, rfl, hstart, hlive.2 (by decide), hstale,
    ((hquestions completion.handle).2.2 hstale).1⟩

end Retrace.Workspace
