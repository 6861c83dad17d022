import Retrace.Proofs.Completion.Marks
import Retrace.Proofs.Completion.Trace

/-!
# A tracer knows every edit since its start

The log of a live tracer and the edits staged behind it are, taken together, the edit that made
the copy and then the inverses of all edits of the source that were accepted since the start
(`entries_eq_creation_cons_accepted`).  When commits merge, what the policy answers from call to
call, which calls fail, and what happens to other sources has no influence on the sequence.

One call is looked at in `Coherent.followed`.  For a run the number of the tracer is what
matters: a tracer whose number was given out before the run has been live all through it
(`Coherent.grows_of_issued`), and a tracer whose number was given out in the run comes from
exactly one start (`Coherent.issued_or_started`).
-/

namespace Retrace.Workspace

variable {workspace changed : Workspace} {source copy : DocumentId} {tracer : Tracer}
  {event : Option Event} {moves : List Move}

/-- The edit that an event makes of a source. -/
def Event.editOf? (source : DocumentId) : Event → Option Edit
  | .edited id edit => if id = source then some edit else none
  | .started _ _ => none

/-- The edits of a source that the replies of a run accept, in order. -/
def acceptedEdits (source : DocumentId) (calls : List Call) (replies : List Reply) : List Edit :=
  (calls.zip replies).filterMap fun made => made.1.acceptedOn source made.2

theorem acceptedEdits_cons (source : DocumentId) (call : Call) (calls : List Call) (reply : Reply)
    (replies : List Reply) :
    acceptedEdits source (call :: calls) (reply :: replies) =
      (call.acceptedOn source reply).toList ++ acceptedEdits source calls replies := by
  rw [acceptedEdits, List.zip_cons_cons, List.filterMap_cons, acceptedEdits]
  rcases call.acceptedOn source reply with _ | edit <;> rfl

/-! ### One call -/

/-- With texts within the limit, exactly the edits that are made are accepted. -/
theorem Reports.acceptedOn_eq {call : Call} {reply : Reply} (h : Reports workspace call reply event)
    (hmarked : workspace.Marked) (hfits : workspace.Fits) (hfits' : changed.Fits)
    (hadvances : Advances workspace event changed) (source : DocumentId) :
    call.acceptedOn source reply = event.bind (Event.editOf? source) := by
  cases h with
  | quiet hedit hstart => exact hedit source
  | accepted hedit hstart => exact hedit source
  | broken hfault hedit hstart => exact absurd hfault (hmarked.not_broken hfits hfits' hadvances)
  | started hedit hcall hopen hcut htracer hhandle => exact hedit source _

/-- A tracer that was there before a call has staged what the call edited of its source, and its
copy has the text that it had. -/
theorem Followed.grows_or_begins (h : Followed workspace changed event copy tracer) :
    (∃ old, workspace.registry.activeFor? copy = some old ∧
        old.Grows tracer (event.bind (Event.editOf? old.source)).toList ∧
        changed.text? copy = workspace.text? copy) ∨
      ∃ first text, event = some (.started first text) ∧ first.Grows tracer [] ∧
        first.id.number = workspace.registry.lastGeneration + 1 ∧
        changed.text? copy = some text := by
  cases h with
  | @stays old hold hgrows hevent hsource hcopy =>
      refine Or.inl ⟨old, hold, ?_, hcopy⟩
      have hnone : event.bind (Event.editOf? old.source) = none := by
        rcases event with _ | ⟨id, edit⟩ | ⟨first, text⟩
        · rfl
        · exact if_neg fun heq => hevent edit (by rw [heq])
        · rfl
      rw [hnone]
      exact hgrows
  | @grows old edit before after hold hgrows hevent hbefore hafter hturns hcopy =>
      refine Or.inl ⟨old, hold, ?_, hcopy⟩
      have hsome : event.bind (Event.editOf? old.source) = some edit := by
        rw [hevent]
        exact if_pos rfl
      rw [hsome]
      exact hgrows
  | begins hevent hgrows hcut hfirst hsource hcopy =>
      refine Or.inr ⟨_, _, hevent, hgrows, ?_, hcopy⟩
      rw [hfirst]
      rfl

/-! ### Runs -/

/-- A tracer whose number was given out before a run was live at the beginning already, and has
only grown.  With texts within the limit, it has grown by the edits that the run accepts. -/
theorem Coherent.grows_of_issued (h : workspace.Coherent)
    (hown : ∀ move ∈ moves, move.call.isOwn = true)
    (hactive : (workspace.afterMoves moves).registry.activeFor? copy = some tracer)
    (hissued : tracer.id.number ≤ workspace.registry.lastGeneration) :
    ∃ old edits, workspace.registry.activeFor? copy = some old ∧ old.Grows tracer edits ∧
      (workspace.afterMoves moves).text? copy = workspace.text? copy ∧
      (workspace.Marked → workspace.FitsThroughMoves moves →
        edits = acceptedEdits old.source (moves.map Move.call) (workspace.runMoves moves).1) := by
  induction moves generalizing workspace with
  | nil => exact ⟨tracer, [], hactive, .refl tracer, rfl, fun _ _ => rfl⟩
  | cons move rest ih =>
      rw [List.forall_mem_cons] at hown
      have hguided := h.withPolicy move.policy
      obtain ⟨event, hreports, hadvances⟩ := hguided.step_advances hown.1
      obtain ⟨next, more, hnext, hgrows, htext, hmore⟩ := ih (h.move hown.1) hown.2 hactive
        (Nat.le_trans hissued hadvances.lastGeneration_le)
      rcases (hguided.followed hadvances hnext).grows_or_begins with
        ⟨old, hold, hgrows', htext'⟩ | ⟨first, text, -, hgrows', hnumber, -⟩
      · refine ⟨old, _, hold, hgrows'.trans hgrows, htext.trans htext', ?_⟩
        intro hmarked hfits
        have hfits' := hfits.2.fits
        have hmarked' := Marked.withPolicy move.policy hmarked
        rw [hmore (kept_marked.advances hguided hfits.1 hfits' hadvances hmarked') hfits.2,
          hgrows'.source, ← hreports.acceptedOn_eq hmarked' hfits.1 hfits' hadvances]
        exact (acceptedEdits_cons _ _ _ _ _).symm
      · -- a tracer that this call starts has a number that was not given out before
        rw [hgrows.id_eq, hgrows'.id_eq, hnumber] at hissued
        exact absurd hissued (Nat.not_succ_le_self _)

/-- A tracer that is live after a run was live before it, or a call of the run has started it
and answered with its handle. -/
theorem Coherent.issued_or_started (h : workspace.Coherent)
    (hown : ∀ move ∈ moves, move.call.isOwn = true)
    (hactive : (workspace.afterMoves moves).registry.activeFor? copy = some tracer) :
    (∃ old, workspace.registry.activeFor? copy = some old ∧ old.handle = tracer.handle) ∨
      ∃ earlier move later completion, moves = earlier ++ move :: later ∧
        ((workspace.afterMoves earlier).move move).1 = .started completion ∧
        completion.handle = tracer.handle := by
  induction moves generalizing workspace with
  | nil => exact Or.inl ⟨tracer, hactive, rfl⟩
  | cons move rest ih =>
      rw [List.forall_mem_cons] at hown
      have hguided := h.withPolicy move.policy
      obtain ⟨event, hreports, hadvances⟩ := hguided.step_advances hown.1
      rcases ih (h.move hown.1) hown.2 hactive with
        ⟨next, hnext, hhandle⟩ | ⟨earlier, again, later, completion, hrest, hreply, hhandle⟩
      · rcases (hguided.followed hadvances hnext).grows_or_begins with
          ⟨old, hold, hgrows, -⟩ | ⟨first, text, hevent, hgrows, -, -⟩
        · exact Or.inl ⟨old, hold, hgrows.handle.symm.trans hhandle⟩
        · subst hevent
          obtain ⟨completion, hreply, hstarted⟩ := hreports.exists_completion
          exact Or.inr ⟨[], move, rest, completion, rfl, hreply,
            hstarted.trans (hgrows.handle.symm.trans hhandle)⟩
      · exact Or.inr ⟨move :: earlier, again, later, completion, congrArg (move :: ·) hrest, hreply,
          hhandle⟩

/-- The tracer that a call has started, as it is after the rest of the run.  Its copy still has
the text that the start has put there. -/
theorem Coherent.grows_of_started (h : workspace.Coherent) {move : Move}
    {completion : Completion} (hown : ∀ each ∈ move :: moves, each.call.isOwn = true)
    (hreply : (workspace.move move).1 = .started completion)
    (hactive : (workspace.afterMoves (move :: moves)).registry.activeFor? copy = some tracer)
    (hhandle : completion.handle = tracer.handle) :
    ∃ span replacement document parts first edits,
      move.call.Starts workspace tracer.source span replacement ∧
        workspace.documents.find? tracer.source = some document ∧
        document.cut span = .ok parts ∧
        first = Tracer.start ⟨workspace.registry.lastGeneration + 1⟩ copy tracer.source
          ⟨span.start, parts.inside, replacement⟩ document.committed ∧
        first.Grows tracer edits ∧
        (workspace.afterMoves (move :: moves)).text? copy = some (parts.replace replacement) ∧
        (workspace.Marked → workspace.FitsThroughMoves (move :: moves) →
          edits = acceptedEdits tracer.source (moves.map Move.call)
            ((workspace.move move).2.runMoves moves).1) := by
  rw [List.forall_mem_cons] at hown
  have hguided := h.withPolicy move.policy
  obtain ⟨event, hreports, hadvances⟩ := hguided.step_advances hown.1
  rw [show ((workspace.withPolicy move.policy).step move.call).1 = .started completion from hreply]
    at hreports
  obtain ⟨source, id, span, replacement, document, parts, first, hcall, hopen, hcut, hfirst,
    hstarted, rfl⟩ := hreports.exists_tracer
  have hid : tracer.id = first.id :=
    congrArg Handle.generation (hhandle.symm.trans hstarted)
  obtain ⟨old, edits, hold, hgrows, htext, hedits⟩ := (h.move hown.1).grows_of_issued hown.2
    hactive (hid ▸ hadvances.issued)
  rcases (hguided.followed hadvances hold).grows_or_begins with
    ⟨before, hbefore, hgrows', -⟩ | ⟨again, text, hagain, hgrows', -, htext'⟩
  · -- a tracer from before the start has a smaller number
    have hle := hguided.generation_le hbefore
    rw [← hgrows'.id_eq, ← hgrows.id_eq, hid, hfirst] at hle
    exact absurd hle (Nat.not_succ_le_self _)
  · cases hagain
    have hwhole := hgrows'.trans hgrows
    have hsource : source = tracer.source := by
      rw [hwhole.source, hfirst]
      rfl
    have hcopy : id = copy := by
      have hsame := ((h.move hown.1).tracer_copy hold).symm.trans hgrows'.copy_eq
      rw [hsame, hfirst]
      rfl
    subst hsource
    subst hcopy
    refine ⟨span, replacement, document, parts, first, edits, Call.starts_withPolicy_iff.1 hcall,
      hopen, hcut, hfirst, hwhole, htext.trans htext', ?_⟩
    intro hmarked hfits
    have hmarked' := Marked.withPolicy move.policy hmarked
    rw [hedits (kept_marked.advances hguided hfits.1 hfits.2.fits hadvances hmarked') hfits.2,
      ← hgrows.source]

/-- **A live tracer holds the start and every accepted edit since.**  After any run, under a policy
that may answer differently in every call, some call of the run has started the tracer and answered
with its handle.  For this call, the log begins with the edit that made the copy, and the rest of
the log together with what is staged are the inverses of the edits of the source that the run
accepted after it, in the order in which they were accepted. -/
theorem entries_eq_creation_cons_accepted (config : Config)
    (hown : ∀ move ∈ moves, move.call.isOwn = true)
    (hfits : (withConfig config).FitsThroughMoves moves)
    (hactive : ((withConfig config).afterMoves moves).activeTracer? copy = some tracer) :
    (∃ earlier move later completion, moves = earlier ++ move :: later ∧
        (((withConfig config).afterMoves earlier).move move).1 = .started completion ∧
        completion.handle = tracer.handle) ∧
      ∀ earlier move later completion, moves = earlier ++ move :: later →
        (((withConfig config).afterMoves earlier).move move).1 = .started completion →
        completion.handle = tracer.handle →
        ∃ span replacement document parts,
          move.call.Starts ((withConfig config).afterMoves earlier) tracer.source span
              replacement ∧
            ((withConfig config).afterMoves earlier).documents.find? tracer.source =
              some document ∧
            document.cut span = .ok parts ∧
            tracer.log.entries.head? = some ⟨span.start, parts.inside, replacement⟩ ∧
            tracer.log.entries.tail ++ tracer.staged =
              (acceptedEdits tracer.source (later.map Move.call)
                ((((withConfig config).afterMoves earlier).move move).2.runMoves later).1).map
                  Edit.inverse := by
  have hcoherent := coherent_withConfig config
  constructor
  · rcases hcoherent.issued_or_started hown hactive with ⟨old, hold, -⟩ | hstarted
    · cases hold
    · exact hstarted
  · rintro earlier move later completion rfl hreply hhandle
    rw [List.forall_mem_append] at hown
    rw [fitsThroughMoves_append] at hfits
    have hactive' : (((withConfig config).afterMoves earlier).afterMoves
        (move :: later)).registry.activeFor? copy = some tracer := by
      rw [← afterMoves_append]
      exact hactive
    have hmarked := kept_marked.afterMoves Marked.withPolicy hcoherent hown.1 hfits.1
      (marked_initial config config.commit.policy)
    obtain ⟨span, replacement, document, parts, first, edits, hcall, hopen, hcut, rfl, hgrows, -,
      hedits⟩ := (hcoherent.afterMoves hown.1).grows_of_started hown.2 hreply hactive' hhandle
    rw [hedits hmarked hfits.2] at hgrows
    refine ⟨span, replacement, document, parts, hcall, hopen, hcut, ?_, hgrows.inverses⟩
    exact congrArg some hgrows.creation

/-- The policy merges nothing at the first commit and everything at the second.  One edit before
them is merged, a refused one is nowhere, and the last one is still staged. -/
theorem entries_of_merged_and_staged :
    let opened : Move := ⟨.stampAdvanced, .openDocument "/a" "ab cd"⟩
    let started : Move := ⟨.stampAdvanced, .start ⟨0⟩ ⟨3, 3, Nat.le_refl 3⟩ "X"⟩
    let later : List Move := [⟨.never, .noteEdit ⟨0⟩ ⟨0, "", "é"⟩⟩, ⟨.never, .commit ⟨0⟩⟩,
      ⟨.always, .commit ⟨0⟩⟩, ⟨.everyEdit, .noteEdit ⟨0⟩ ⟨9, "x", ""⟩⟩,
      ⟨.neverOnEdit, .edit ⟨0⟩ ⟨0, 2, Nat.zero_le 2⟩ ""⟩]
    let workspace := withConfig .default
    let tracer : Tracer :=
      ⟨⟨1⟩, ⟨1⟩, ⟨0⟩, ⟨⟨3, "", "X"⟩, [⟨0, "é", ""⟩]⟩, [⟨0, "", "é"⟩], ⟨1⟩⟩
    (∀ move ∈ opened :: started :: later, move.call.isOwn = true) ∧
      workspace.FitsThroughMoves (opened :: started :: later) ∧
      (workspace.afterMoves (opened :: started :: later)).activeTracer? ⟨1⟩ = some tracer ∧
      ∃ span replacement document parts,
        started.call.Starts (workspace.afterMoves [opened]) ⟨0⟩ span replacement ∧
          (workspace.afterMoves [opened]).documents.find? ⟨0⟩ = some document ∧
          document.cut span = .ok parts ∧
          tracer.log.entries.head? = some ⟨span.start, parts.inside, replacement⟩ ∧
          tracer.log.entries.tail ++ tracer.staged =
            (acceptedEdits ⟨0⟩ (later.map Move.call)
              (((workspace.afterMoves [opened]).move started).2.runMoves later).1).map
                Edit.inverse := by
  intro opened started later workspace tracer
  have hown : ∀ move ∈ opened :: started :: later, move.call.isOwn = true := by decide
  have hfits : workspace.FitsThroughMoves (opened :: started :: later) := by decide
  have hactive : (workspace.afterMoves (opened :: started :: later)).activeTracer? ⟨1⟩ =
      some tracer := by decide
  have hreply : ((workspace.afterMoves [opened]).move started).1 =
      .started ⟨⟨0⟩, ⟨1⟩, ⟨⟨1⟩, ⟨1⟩⟩, "ab Xcd"⟩ := by decide
  refine ⟨hown, hfits, hactive, ?_⟩
  exact (entries_eq_creation_cons_accepted .default hown hfits hactive).2
    [opened] started later _ rfl hreply rfl

end Retrace.Workspace
