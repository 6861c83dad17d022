import Retrace.Proofs.Completion.Places

/-!
# Named offsets do not see commits

The named offsets of a live handle are the ends of the span that was replaced, taken through all
that the tracer holds (`marks?_eq_settleThrough`).  What the tracer holds are the edits since the
start, and which edits these are is decided by the text at the start and by the calls that edit the
source (`editsOf`): a call is accepted exactly if its edit fits the text that the ones before it
have left (`Marked.acceptedOn_step`).  Commits have no part in this, and neither have other
documents, so two runs that agree in the start and in the calls that edit the source have the same
named offsets, wherever they commit and whatever their policies answer from call to call.
-/

namespace Retrace

/-- The text that an edit makes of a text, if the removed text is there. -/
def Edit.applyTo? (edit : Edit) (text : String) : Option String :=
  match edit.removedSpan with
  | .error _ => none
  | .ok span =>
      match Text.cut text span with
      | .error _ => none
      | .ok parts =>
          if parts.inside = edit.removed then some (parts.replace edit.inserted) else none

theorem Document.toOption_cut (document : Document) (span : Span) :
    (document.cut span).toOption = (Text.cut document.text span).toOption := by
  unfold cut
  rcases Text.cut document.text span with (_ | _) | parts <;> rfl

/-- A document accepts the edits that can be made of its text. -/
theorem Document.applyTo?_text (document : Document) (edit : Edit) :
    edit.applyTo? document.text = (document.apply edit).toOption.map Document.text := by
  unfold Edit.applyTo? apply cut
  rcases edit.removedSpan with fault | span
  · rfl
  · simp only
    rcases Text.cut document.text span with (_ | _) | parts
    · rfl
    · rfl
    · simp only
      split <;> rfl

namespace Workspace

variable {workspace changed : Workspace} {source copy : DocumentId} {tracer : Tracer}
  {document : Document} {handle : Handle} {event : Option Event} {call : Call} {moves : List Move}
  {text : String} {span : Span} {replacement : String}

/-! ### The edits that calls make of a text -/

/-- Whether a call edits a document. -/
def Call.edits (source : DocumentId) : Call → Bool
  | .noteEdit id _ => id = source
  | .edit id _ _ => id = source
  | _ => false

/-- The edit that a call makes of a document with this text, and the text after it. -/
def Call.editOf? (source : DocumentId) (text : String) : Call → Option (Edit × String)
  | .noteEdit id noted =>
      if id = source then (noted.applyTo? text).map fun edited => (noted, edited) else none
  | .edit id span inserted =>
      if id = source then
        (Text.cut text span).toOption.map fun parts =>
          (⟨span.start, parts.inside, inserted⟩, parts.replace inserted)
      else none
  | _ => none

/-- The edits that calls make of a document, each of the text that those before it have left. -/
def editsOf (source : DocumentId) : String → List Call → List Edit
  | _, [] => []
  | text, call :: rest =>
      match call.editOf? source text with
      | none => editsOf source text rest
      | some (edit, edited) => edit :: editsOf source edited rest

theorem Call.editOf?_eq_none (h : call.edits source = false) (text : String) :
    call.editOf? source text = none := by
  cases call with
  | noteEdit id noted => exact if_neg (of_decide_eq_false h)
  | edit id span inserted => exact if_neg (of_decide_eq_false h)
  | _ => rfl

theorem Call.acceptedOn_eq_none (h : call.edits source = false) (reply : Reply) :
    call.acceptedOn source reply = none := by
  cases call with
  | noteEdit id noted =>
      cases reply with
      | noted => exact if_neg (of_decide_eq_false h)
      | _ => rfl
  | edit id span inserted =>
      cases reply with
      | edited made => exact if_neg (of_decide_eq_false h)
      | _ => rfl
  | _ => rfl

/-- Only calls that edit the document matter. -/
theorem editsOf_filter (source : DocumentId) (text : String) (calls : List Call) :
    editsOf source text (calls.filter (Call.edits source)) = editsOf source text calls := by
  induction calls generalizing text with
  | nil => rfl
  | cons call rest ih =>
      cases hedits : call.edits source with
      | true =>
          rw [List.filter_cons_of_pos hedits]
          simp only [editsOf]
          rcases call.editOf? source text with _ | ⟨edit, edited⟩
          · exact ih text
          · exact congrArg (edit :: ·) (ih edited)
      | false =>
          rw [List.filter_cons_of_neg (Bool.eq_false_iff.1 hedits)]
          simp only [editsOf, Call.editOf?_eq_none hedits]
          exact ih text

/-! ### What is accepted -/

/-- With texts within the limit, a source accepts exactly the edits that fit its text, and has the
text that they make. -/
theorem Marked.acceptedOn_step (h : workspace.Marked) (call : Call) (hfits : workspace.Fits)
    (hfits' : (workspace.step call).2.Fits)
    (hopen : workspace.documents.find? source = some document) (hcopy : document.copyOf = none) :
    call.acceptedOn source (workspace.step call).1 =
        (call.editOf? source document.text).map Prod.fst ∧
      ∀ made, call.editOf? source document.text = some made →
        (workspace.step call).2.text? source = some made.2 := by
  have hlength : document.length ≤ Offset.limit := hfits.length_le hopen
  cases hedits : call.edits source with
  | false =>
      rw [Call.acceptedOn_eq_none hedits, Call.editOf?_eq_none hedits]
      exact ⟨rfl, fun _ hmade => by cases hmade⟩
  | true =>
      cases call with
      | noteEdit id edit =>
          cases of_decide_eq_true hedits
          simp only [Call.editOf?, if_true, document.applyTo?_text, step] at hfits' ⊢
          rcases happly : document.apply edit with failure | edited
          · have hrefused : workspace.noteEdit source edit = (.error failure, workspace) := by
              simp only [noteEdit, Store.get, hopen, if_neg (not_not_intro hcopy), happly]
            rw [hrefused]
            exact ⟨rfl, fun _ hmade => by cases hmade⟩
          · obtain ⟨hok, htext⟩ := h.noteEdit_of_apply hopen hcopy happly hlength
              (hfits'.edited_length_le hopen hcopy happly)
            rw [hok]
            refine ⟨if_pos rfl, ?_⟩
            intro made hmade
            cases hmade
            exact htext
      | edit id span inserted =>
          cases of_decide_eq_true hedits
          simp only [Call.editOf?, if_true, ← document.toOption_cut, step] at hfits' ⊢
          rcases hcut : document.cut span with refusal | parts
          · have hrefused : workspace.edit source span inserted = workspace.refuse refusal := by
              simp only [Workspace.edit, Store.get, hopen, hcut]
            rw [hrefused]
            exact ⟨rfl, fun _ hmade => by cases hmade⟩
          · have hturns : Edit.Turns ⟨span.start, parts.inside, inserted⟩ document.text
                (parts.replace inserted) := Document.turns_of_cut hcut
            have happly := Document.apply_of_turns (Nat.le_trans hturns.removed_le hlength) hturns
            rw [Workspace.edit_of_cut hopen hcut] at hfits'
            obtain ⟨hok, htext⟩ := h.edit_of_cut hopen hcopy hcut hlength
              (hfits'.edited_length_le hopen hcopy happly)
            rw [hok]
            refine ⟨if_pos rfl, ?_⟩
            intro made hmade
            cases hmade
            exact htext
      | _ => cases hedits

/-- A call that does not edit the source of a tracer leaves its text alone. -/
theorem Followed.text?_source (h : Followed workspace changed event copy tracer)
    (hissued : tracer.id.number ≤ workspace.registry.lastGeneration)
    (hquiet : event.bind (Event.editOf? tracer.source) = none) :
    changed.text? tracer.source = workspace.text? tracer.source := by
  cases h with
  | stays hold hgrows hevent hsource hcopy =>
      rw [hgrows.source]
      exact hsource
  | @grows old edit before after hold hgrows hevent hbefore hafter hturns hcopy =>
      have hsome : event.bind (Event.editOf? tracer.source) = some edit := by
        rw [hevent]
        exact if_pos hgrows.source.symm
      rw [hsome] at hquiet
      cases hquiet
  | begins hevent hgrows hcut hfirst hsource hcopy =>
      rw [hgrows.id_eq, hfirst] at hissued
      exact absurd hissued (Nat.not_succ_le_self _)

/-- The edits of its source that a run accepts during the life of a tracer. -/
theorem Coherent.acceptedEdits_eq (h : workspace.Coherent) (hmarked : workspace.Marked)
    (hown : ∀ move ∈ moves, move.call.isOwn = true) (hfits : workspace.FitsThroughMoves moves)
    (hactive : (workspace.afterMoves moves).registry.activeFor? copy = some tracer)
    (hissued : tracer.id.number ≤ workspace.registry.lastGeneration)
    (htext : workspace.text? tracer.source = some text) :
    acceptedEdits tracer.source (moves.map Move.call) (workspace.runMoves moves).1 =
      editsOf tracer.source text (moves.map Move.call) := by
  induction moves generalizing workspace text with
  | nil => rfl
  | cons move rest ih =>
      obtain ⟨old, _, hold, hgrows, -, -⟩ := h.grows_of_issued hown hactive hissued
      rw [List.forall_mem_cons] at hown
      have hguided := h.withPolicy move.policy
      have hmarkedGuided := Marked.withPolicy move.policy hmarked
      obtain ⟨event, hreports, hadvances⟩ := hguided.step_advances hown.1
      have hfits' : (workspace.move move).2.Fits := hfits.2.fits
      have hmarked' := kept_marked.advances hguided hfits.1 hfits' hadvances hmarkedGuided
      have hissued' := Nat.le_trans hissued hadvances.lastGeneration_le
      -- the tracer has been live all the time, so its source is open and no copy
      obtain ⟨document, hopen, hnocopy⟩ := h.tracer_source_open hold
      rw [← hgrows.source] at hopen
      rw [text?_of_open hopen, Option.some.injEq] at htext
      subst htext
      obtain ⟨haccepted, hedited⟩ :=
        hmarkedGuided.acceptedOn_step move.call hfits.1 hfits' hopen hnocopy
      refine (acceptedEdits_cons _ _ _ _ _).trans ?_
      rw [List.map_cons, editsOf]
      rw [show move.call.acceptedOn tracer.source (workspace.move move).1 = _ from haccepted]
      rcases hmade : move.call.editOf? tracer.source document.text with _ | ⟨edit, edited⟩
      · obtain ⟨next, _, hnext, hgrows', -, -⟩ :=
          (h.move hown.1).grows_of_issued hown.2 hactive hissued'
        have hquiet : event.bind (Event.editOf? next.source) = none := by
          rw [← hgrows'.source, ← hreports.acceptedOn_eq hmarkedGuided hfits.1 hfits' hadvances,
            haccepted, hmade]
          rfl
        have hsame :=
          (hguided.followed hadvances hnext).text?_source (hgrows'.id_eq ▸ hissued) hquiet
        have hbefore : (workspace.withPolicy move.policy).text? tracer.source =
            some document.text := text?_of_open hopen
        rw [← hgrows'.source, hbefore] at hsame
        exact ih (h.move hown.1) hmarked' hown.2 hfits.2 hactive hissued' hsame
      · exact congrArg (edit :: ·)
          (ih (h.move hown.1) hmarked' hown.2 hfits.2 hactive hissued' (hedited _ hmade))

/-! ### Runs that start a completion -/

/-- A call that asks for a completion and gets it has the result of the start that it asks for. -/
theorem Call.Starts.start_eq (h : call.Starts workspace source span replacement)
    {completion : Completion} (hreply : (workspace.step call).1 = .started completion) :
    workspace.start source span replacement = (.ok completion, (workspace.step call).2) := by
  cases h with
  | span source span replacement => exact Prod.ext (Reply.ofAnswer_eq_started hreply) rfl
  | @caret source caret document span hopen hspan =>
      simp only [step] at hreply ⊢
      rcases workspace.startAt_cases source caret with
        ⟨failure, heq⟩ | ⟨document', span', hopen', hspan', heq⟩
      · rw [heq] at hreply
        cases hreply
      · cases hopen.symm.trans hopen'
        cases hspan.symm.trans hspan'
        rw [heq] at hreply ⊢
        exact Prod.ext (Reply.ofAnswer_eq_started hreply) rfl

/-- The tracer that a start leaves behind. -/
theorem Coherent.exists_first (h : workspace.Coherent) {completion : Completion}
    (hopen : workspace.documents.find? source = some document)
    (hstart : workspace.start source span replacement = (.ok completion, changed)) :
    ∃ first parts, document.cut span = .ok parts ∧
      first = Tracer.start ⟨workspace.registry.lastGeneration + 1⟩ completion.copy source
        ⟨span.start, parts.inside, replacement⟩ document.committed ∧
      completion.handle = first.handle ∧
      changed.registry.activeFor? completion.copy = some first ∧
      changed.documents.find? source = some document := by
  rcases workspace.start_cases source span replacement with
    ⟨refusal, heq⟩ | ⟨document', parts, copy, placed, hopen', -, hcut, -, -⟩
  · cases hstart.symm.trans heq
  · cases hopen.symm.trans hopen'
    obtain ⟨first, hfirst, -, hhandle, hactive, hsource, -, -⟩ := h.start_eq_ok hopen hcut hstart
    exact ⟨first, parts, hcut, hfirst, hhandle, hactive, hsource⟩

/-- In a run a handle is given out for a completion that replaces a span of a source, when the
source has this text, and the later calls are what is left of the run then. -/
def Begins (workspace : Workspace) (moves : List Move) (handle : Handle) (source : DocumentId)
    (text : String) (span : Span) (later : List Call) : Prop :=
  ∃ earlier move rest completion replacement, moves = earlier ++ move :: rest ∧
    later = rest.map Move.call ∧
    move.call.Starts (workspace.afterMoves earlier) source span replacement ∧
    (workspace.afterMoves earlier).text? source = some text ∧
    ((workspace.afterMoves earlier).move move).1 = .started completion ∧
    completion.handle = handle

/-- Every live handle was given out by the run. -/
theorem exists_begins {config : Config} (hown : ∀ move ∈ moves, move.call.isOwn = true)
    (hlive : ((withConfig config).afterMoves moves).tracer? handle = some tracer) :
    ∃ text span later, (withConfig config).Begins moves handle tracer.source text span later := by
  have hinitial := coherent_withConfig config
  obtain ⟨hactive, hhandle⟩ := (hinitial.afterMoves hown).handle_eq hlive
  rcases hinitial.issued_or_started hown hactive with
    ⟨old, hold, -⟩ | ⟨earlier, move, rest, completion, rfl, hreply, hstarted⟩
  · cases hold
  · rw [List.forall_mem_append] at hown
    rw [afterMoves_append] at hactive
    obtain ⟨span, replacement, document, -, -, -, hcall, hopen, -⟩ :=
      (hinitial.afterMoves hown.1).grows_of_started hown.2 hreply hactive hstarted
    exact ⟨document.text, span, _, earlier, move, rest, completion, replacement, rfl, rfl, hcall,
      text?_of_open hopen, hreply, hstarted.trans hhandle.symm⟩

/-- What a live tracer holds: the creation replaces the span, and then come the inverses of the
edits since. -/
theorem held_of_begins {config : Config} {later : List Call}
    (hown : ∀ move ∈ moves, move.call.isOwn = true)
    (hfits : (withConfig config).FitsThroughMoves moves)
    (hlive : ((withConfig config).afterMoves moves).tracer? handle = some tracer)
    (hbegins : (withConfig config).Begins moves handle source text span later) :
    tracer.log.creation.removedSpan = .ok span ∧
      tracer.log.later ++ tracer.staged = (editsOf source text later).map Edit.inverse := by
  have hinitial := coherent_withConfig config
  obtain ⟨hactive, hhandle⟩ := (hinitial.afterMoves hown).handle_eq hlive
  obtain ⟨earlier, move, rest, completion, replacement, rfl, rfl, hcall, htext, hreply, hgiven⟩ :=
    hbegins
  rw [List.forall_mem_append, List.forall_mem_cons] at hown
  rw [fitsThroughMoves_append] at hfits
  rw [afterMoves_append, afterMoves_cons] at hactive
  have hbefore := hinitial.afterMoves hown.1
  have hguided := hbefore.withPolicy move.policy
  have hmarked := kept_marked.afterMoves Marked.withPolicy hinitial hown.1 hfits.1
    (marked_initial config config.commit.policy)
  obtain ⟨document, hopen, rfl⟩ := Option.map_eq_some_iff.1 htext
  obtain ⟨first, parts, hcut, hfirst, hcompletion, hplaced, hsource⟩ :=
    hguided.exists_first hopen ((Call.starts_withPolicy_iff.2 hcall).start_eq hreply)
  have hstarted := hbefore.move hown.2.1
  have hsame : first.handle = tracer.handle := hcompletion.symm.trans (hgiven.trans hhandle)
  have hid : first.id = tracer.id := congrArg Handle.generation hsame
  have hissued := hid ▸ hstarted.generation_le hplaced
  obtain ⟨old, edits, hold, hgrows, -, hedits⟩ :=
    hstarted.grows_of_issued hown.2.2 hactive hissued
  -- the tracer is the one that this call has started
  have heq : old = first := by
    have hcopy := hstarted.generation_inj hold hplaced (hgrows.id_eq.symm.trans hid.symm)
    rw [hcopy] at hold
    exact Option.some.inj (hold.symm.trans hplaced)
  subst heq
  have hon : tracer.source = source := by
    rw [hgrows.source, hfirst]
    rfl
  subst hon
  obtain ⟨event, -, hadvances⟩ := hguided.step_advances hown.2.1
  have hmarked' := kept_marked.advances hguided hfits.2.1 hfits.2.2.fits hadvances
    (Marked.withPolicy move.policy hmarked)
  rw [hedits hmarked' hfits.2.2, ← hgrows.source, hstarted.acceptedEdits_eq hmarked' hown.2.2
    hfits.2.2 hactive hissued (text?_of_open hsource)] at hgrows
  constructor
  · rw [hgrows.creation, hfirst]
    exact Document.removedSpan_of_cut hcut (hfits.2.1.length_le hopen)
  · rw [hgrows.inverses, hfirst]
    rfl

/-- After a run, a live tracer puts the named offsets of its handle where they are. -/
theorem exists_puts_after {config : Config} (hown : ∀ move ∈ moves, move.call.isOwn = true)
    (hfits : (withConfig config).FitsThroughMoves moves)
    (hlive : ((withConfig config).afterMoves moves).tracer? handle = some tracer) :
    ∃ marks, ((withConfig config).afterMoves moves).marks? handle = some marks ∧
      tracer.Puts marks := by
  have hinitial := coherent_withConfig config
  have hkept := kept_tracked.afterMoves Tracked.withPolicy hinitial hown hfits
    ⟨marked_initial config config.commit.policy, tracked_initial config config.commit.policy⟩
  exact hkept.2.exists_puts (hinitial.afterMoves hown) hlive

/-- The named offsets of a live handle are the ends of the span carried over the edits since. -/
theorem marks?_of_begins {config : Config} {later : List Call}
    (hown : ∀ move ∈ moves, move.call.isOwn = true)
    (hfits : (withConfig config).FitsThroughMoves moves)
    (hlive : ((withConfig config).afterMoves moves).isUpToDate handle = true)
    (hbegins : (withConfig config).Begins moves handle source text span later) :
    ∃ marks, ∃ start stop : Nat,
      ((withConfig config).afterMoves moves).marks? handle = some marks ∧
        marks.entries = [(.start, start), (.selectionEnd, start), (.identifierEnd, stop)] ∧
        carryThrough (editsOf source text later) span.start = .ok start ∧
        carryThrough (editsOf source text later) span.stop = .ok stop := by
  obtain ⟨tracer, htracer⟩ := Option.isSome_iff_exists.1 hlive
  obtain ⟨hremoved, hheld⟩ := held_of_begins hown hfits htracer hbegins
  obtain ⟨marks, hmarks, removed, start, stop, hremoved', hentries, hstart, hstop⟩ :=
    exists_puts_after hown hfits htracer
  rw [hremoved, Except.ok.injEq] at hremoved'
  subst hremoved'
  rw [hheld, settleThrough_map_inverse] at hstart hstop
  exact ⟨marks, start, stop, hmarks, hentries, hstart, hstop⟩

/-- **Named offsets and the log agree.**  In every state that calls of the workspace reach with
texts within the limit, under a policy that may answer differently in every call, the named offsets
of a live handle come from the creation of its copy: what the tracer holds behind the creation,
merged or staged, is undone from the oldest on, and where there is no counterpart the place of the
edit is taken.  The start of what the creation removes gives the first two, and the end of it gives
the last.  They do not depend on commits: the handle was given out for a span of the source with
some text, and in every other run, with other answers of the policy and with commits anywhere, a
live handle that was given out for the same span of the same text has the same named offsets, if the
later calls that edit the source are the same. -/
theorem marks?_eq_settleThrough (config : Config)
    (hown : ∀ move ∈ moves, move.call.isOwn = true)
    (hfits : (withConfig config).FitsThroughMoves moves)
    (hlive : ((withConfig config).afterMoves moves).tracer? handle = some tracer) :
    (∃ marks removed, ∃ start stop : Nat,
        ((withConfig config).afterMoves moves).marks? handle = some marks ∧
          marks.entries = [(.start, start), (.selectionEnd, start), (.identifierEnd, stop)] ∧
          tracer.log.creation.removedSpan = .ok removed ∧
          settleThrough (tracer.log.entries.tail ++ tracer.staged) tracer.log.creation.offset =
            .ok start ∧
          settleThrough (tracer.log.entries.tail ++ tracer.staged) removed.stop = .ok stop) ∧
      (∃ text span later,
        (withConfig config).Begins moves handle tracer.source text span later) ∧
      ∀ text span later config' moves' handle' later',
        (withConfig config).Begins moves handle tracer.source text span later →
          (∀ move ∈ moves', move.call.isOwn = true) →
          (withConfig config').FitsThroughMoves moves' →
          ((withConfig config').afterMoves moves').isUpToDate handle' = true →
          (withConfig config').Begins moves' handle' tracer.source text span later' →
          later'.filter (Call.edits tracer.source) = later.filter (Call.edits tracer.source) →
            ((withConfig config').afterMoves moves').marks? handle' =
              ((withConfig config).afterMoves moves).marks? handle := by
  refine ⟨?_, exists_begins hown hlive, ?_⟩
  · obtain ⟨marks, hmarks, removed, start, stop, hremoved, hentries, hstart, hstop⟩ :=
      exists_puts_after hown hfits hlive
    refine ⟨marks, removed, start, stop, hmarks, hentries, hremoved, ?_, hstop⟩
    have hoffset : removed.start = tracer.log.creation.offset :=
      (Span.ofLength_eq_ok_iff.1 hremoved).1
    rw [← hoffset]
    exact hstart
  · intro text span later config' moves' handle' later' hbegins hown' hfits' hlive' hbegins' hsame
    obtain ⟨marks, start, stop, hmarks, hentries, hstart, hstop⟩ :=
      marks?_of_begins hown hfits (Option.isSome_iff_exists.2 ⟨tracer, hlive⟩) hbegins
    obtain ⟨marks', start', stop', hmarks', hentries', hstart', hstop'⟩ :=
      marks?_of_begins hown' hfits' hlive' hbegins'
    -- only the calls that edit the source decide which edits there were
    have hedits : editsOf tracer.source text later' = editsOf tracer.source text later := by
      rw [← editsOf_filter, hsame, editsOf_filter]
    cases hstart.symm.trans (hedits ▸ hstart')
    cases hstop.symm.trans (hedits ▸ hstop')
    rw [hmarks, hmarks', Table.ext (hentries'.trans hentries.symm)]

/-- One run commits twice after the first edit, and the policy lets the second commit merge.  The
second edit stays staged.  In the other run edits are committed at once, and a document is opened
and a copy committed in between. -/
theorem marks?_around_commits :
    let opened : Call := .openDocument "/a" "aé日b"
    let started : Call := .start ⟨0⟩ ⟨3, 6, by decide⟩ "X"
    let first : Call := .edit ⟨0⟩ ⟨1, 6, by decide⟩ "üü"
    let second : Call := .noteEdit ⟨0⟩ ⟨1, "ü", "日"⟩
    let moves : List Move := [⟨.never, opened⟩, ⟨.always, started⟩, ⟨.never, first⟩,
      ⟨.never, .commit ⟨0⟩⟩, ⟨.always, .commit ⟨0⟩⟩, ⟨.stampAdvanced, second⟩]
    let moves' : List Move := [⟨.everyEdit, opened⟩, ⟨.everyEdit, started⟩,
      ⟨.never, .openDocument "/b" ""⟩, ⟨.everyEdit, first⟩, ⟨.always, .commit ⟨1⟩⟩,
      ⟨.neverOnEdit, second⟩, ⟨.stampAdvanced, .commit ⟨0⟩⟩]
    let workspace := (withConfig .default).afterMoves moves
    let workspace' := (withConfig .default).afterMoves moves'
    let tracer : Tracer :=
      ⟨⟨1⟩, ⟨1⟩, ⟨0⟩, ⟨⟨3, "日", "X"⟩, [⟨1, "üü", "é日"⟩]⟩, [⟨1, "日", "ü"⟩], ⟨1⟩⟩
    (∀ move ∈ moves, move.call.isOwn = true) ∧
      (withConfig .default).FitsThroughMoves moves ∧
      workspace.tracer? ⟨⟨1⟩, ⟨1⟩⟩ = some tracer ∧
      (∃ marks removed, ∃ start stop : Nat, workspace.marks? ⟨⟨1⟩, ⟨1⟩⟩ = some marks ∧
        marks.entries = [(.start, start), (.selectionEnd, start), (.identifierEnd, stop)] ∧
        tracer.log.creation.removedSpan = .ok removed ∧
        settleThrough (tracer.log.entries.tail ++ tracer.staged) tracer.log.creation.offset =
          .ok start ∧
        settleThrough (tracer.log.entries.tail ++ tracer.staged) removed.stop = .ok stop) ∧
      workspace'.marks? ⟨⟨1⟩, ⟨1⟩⟩ = workspace.marks? ⟨⟨1⟩, ⟨1⟩⟩ := by
  intro opened started first second moves moves' workspace workspace' tracer
  have hown : ∀ move ∈ moves, move.call.isOwn = true := by decide
  have hfits : (withConfig .default).FitsThroughMoves moves := by decide
  have hlive : workspace.tracer? ⟨⟨1⟩, ⟨1⟩⟩ = some tracer := by decide
  obtain ⟨hmarks, -, hother⟩ := marks?_eq_settleThrough .default hown hfits hlive
  refine ⟨hown, hfits, hlive, hmarks, ?_⟩
  have hbegins : (withConfig .default).Begins moves ⟨⟨1⟩, ⟨1⟩⟩ ⟨0⟩ "aé日b" ⟨3, 6, by decide⟩
      [first, .commit ⟨0⟩, .commit ⟨0⟩, second] :=
    ⟨[_], _, _, ⟨⟨0⟩, ⟨1⟩, ⟨⟨1⟩, ⟨1⟩⟩, "aéXb"⟩, "X", rfl, rfl, .span _ _ _, rfl, by decide, rfl⟩
  have hbegins' : (withConfig .default).Begins moves' ⟨⟨1⟩, ⟨1⟩⟩ ⟨0⟩ "aé日b" ⟨3, 6, by decide⟩
      [.openDocument "/b" "", first, .commit ⟨1⟩, second, .commit ⟨0⟩] :=
    ⟨[_], _, _, ⟨⟨0⟩, ⟨1⟩, ⟨⟨1⟩, ⟨1⟩⟩, "aéXb"⟩, "X", rfl, rfl, .span _ _ _, rfl, by decide, rfl⟩
  exact hother "aé日b" ⟨3, 6, by decide⟩ _ .default moves' ⟨⟨1⟩, ⟨1⟩⟩ _ hbegins (by decide)
    (by decide) (by decide) hbegins' (by decide)

end Workspace

end Retrace
