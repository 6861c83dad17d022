import Retrace.Proofs.Completion.History

/-!
# Answers before the first merge

As long as nothing is merged, the log of a tracer holds only the edit that made the copy, and
the answers are those of the moment of the start, however much is staged
(`retrace_before_merge`).  Up to the replaced span and behind it, copy and source have the same
bytes at an offset and at its answer; strictly inside the replacement there is an answer only
if the span was empty.
-/

namespace Retrace.Workspace

variable {workspace started : Workspace} {source copy : DocumentId} {span : Span}
  {replacement : String} {completion : Completion} {document : Document} {tracer : Tracer}

/-- A handle finds the live tracer that has it. -/
theorem Coherent.handle_eq (h : workspace.Coherent) {handle : Handle}
    (hlive : workspace.tracer? handle = some tracer) :
    workspace.registry.activeFor? handle.copy = some tracer ∧ handle = tracer.handle := by
  obtain ⟨hfind, -⟩ := Option.filter_eq_some_iff.1 hlive
  obtain ⟨hactive, hid⟩ := Registry.find?_eq_some_iff.1 hfind
  obtain ⟨copy, generation⟩ := handle
  have hcopy : tracer.copy = copy := h.tracer_copy hactive
  refine ⟨hactive, ?_⟩
  rw [Tracer.handle, hcopy, hid]

theorem removed_eq_empty_iff {parts : Text.Cut} (hcut : document.cut span = .ok parts) :
    parts.inside = "" ↔ span.start = span.stop := by
  obtain ⟨-, hstart, hstop⟩ := Document.cut_eq_ok_iff_append.1 hcut
  rw [String.utf8ByteSize_append] at hstop
  rw [← String.utf8ByteSize_eq_zero_iff]
  omega

/-- As long as nothing is merged, the log of a live tracer holds the edit that made the copy, and
the copy has the text that the start has put there. -/
theorem Coherent.entries_of_unmerged (h : workspace.Coherent) {later : List Call}
    (hown : ∀ call ∈ later, call.isOwn = true)
    (hopen : workspace.documents.find? source = some document)
    (hstart : workspace.start source span replacement = (.ok completion, started))
    (hlive : (started.after later).tracer? completion.handle = some tracer)
    (hsize : tracer.log.size = 1) :
    ∃ parts copied, document.cut span = .ok parts ∧
      tracer.log.entries = [⟨span.start, parts.inside, replacement⟩] ∧
      (started.after later).documents.find? completion.copy = some copied ∧
      copied.text = parts.replace replacement ∧ completion.text = parts.replace replacement := by
  -- the start and the calls after it are one run, under the policy of the workspace
  have hownRun : ∀ call ∈ Call.start source span replacement :: later, call.isOwn = true :=
    List.forall_mem_cons.2 ⟨rfl, hown⟩
  have hstep : (workspace.step (.start source span replacement)).2 = started :=
    congrArg Prod.snd hstart
  have hmoves : workspace.afterMoves
      (⟨workspace.policy, .start source span replacement⟩ :: later.map (Move.mk workspace.policy)) =
        started.after later := by
    have hrun := congrArg Prod.snd (h.runMoves_under hownRun)
    rw [← hstep]
    exact hrun
  have hownMoves : ∀ move ∈ Move.mk workspace.policy (.start source span replacement) ::
      later.map (Move.mk workspace.policy), move.call.isOwn = true :=
    List.forall_mem_cons.2 ⟨rfl, List.forall_mem_map.2 hown⟩
  have hreply : (workspace.move ⟨workspace.policy, .start source span replacement⟩).1 =
      .started completion :=
    congrArg (fun outcome : Outcome Completion => Reply.ofAnswer .started outcome.1) hstart
  obtain ⟨hactive, hhandle⟩ := Coherent.handle_eq (hmoves ▸ h.afterMoves hownMoves) hlive
  obtain ⟨span', replacement', document', parts, first, edits, hcall, hopen', hcut, hfirst, hgrows,
    htext, -⟩ := h.grows_of_started hownMoves hreply (hmoves.symm ▸ hactive) hhandle
  cases hcall
  rw [hopen, Option.some.injEq] at hopen'
  subst hopen'
  obtain ⟨first', hfirst', hplaced, hhandle', -⟩ := h.start_eq_ok hopen hcut hstart
  have hcopyOf : completion.handle.copy = completion.copy := by
    rw [hhandle', hfirst']
    rfl
  rw [hmoves, hcopyOf] at htext
  obtain ⟨copied, hcopied, hcopiedText⟩ := Option.map_eq_some_iff.1 htext
  have hcreation : tracer.log.creation = ⟨span.start, parts.inside, replacement⟩ := by
    rw [hgrows.creation, hfirst]
    rfl
  have hlater : tracer.log.later = [] :=
    List.eq_nil_of_length_eq_zero (Nat.succ.inj hsize)
  refine ⟨parts, copied, hcut, ?_, hcopied, hcopiedText, hplaced⟩
  rw [Log.entries, hcreation, hlater]

/-- **Before the first merge, answers point at the same text.**  A completion is started in any
state that is reached by calls of the workspace, and more calls follow.  If its handle is still
live and its log still holds one entry, an offset of the copy up to the start of the span is
answered by itself, and one behind the replacement by the offset that has the same text behind
it.  Strictly inside the replacement the answer is the start of an empty span, and there is none
for a span with text in it. -/
theorem retrace_before_merge (config : Config) (policy : CommitPolicy) {earlier later : List Call}
    (hown : ∀ call ∈ earlier ++ later, call.isOwn = true)
    (hopen : ((initial config policy).after earlier).documents.find? source = some document)
    (hstart : ((initial config policy).after earlier).start source span replacement =
      (.ok completion, started))
    (hsource : document.length ≤ Offset.limit)
    (hcopy : completion.text.utf8ByteSize ≤ Offset.limit)
    (hlive : (started.after later).tracer? completion.handle = some tracer)
    (hsize : tracer.log.size = 1) :
    ∃ copied, (started.after later).documents.find? completion.copy = some copied ∧
      ∀ offset, offset ≤ copied.length →
        (offset ≤ span.start →
          (started.after later).retrace completion.handle offset = .ok (some offset) ∧
            (Text.bytes copied.text).take offset = (Text.bytes document.text).take offset) ∧
        (span.start < offset → span.start + replacement.utf8ByteSize ≤ offset →
          ∃ reached : Nat, reached ≤ document.length ∧
            (started.after later).retrace completion.handle offset = .ok (some reached) ∧
            (Text.bytes copied.text).drop offset = (Text.bytes document.text).drop reached) ∧
        (span.start < offset → offset < span.start + replacement.utf8ByteSize →
          (started.after later).retrace completion.handle offset =
            .ok (if span.start = span.stop then some span.start else none)) := by
  rw [List.forall_mem_append] at hown
  obtain ⟨parts, copied, hcut, hentries, hcopied, hcopiedText, hplaced⟩ :=
    ((coherent_initial config policy).after hown.1).entries_of_unmerged hown.2 hopen hstart hlive
      hsize
  refine ⟨copied, hcopied, ?_⟩
  have hretrace : ∀ offset, (started.after later).retrace completion.handle offset =
      Edit.retrace ⟨span.start, parts.inside, replacement⟩ offset := by
    intro offset
    simp only [retrace, hlive, Tracer.retrace, Log.retrace, hentries, retraceThrough]
  have hturns : Edit.Turns ⟨span.start, parts.inside, replacement⟩ document.text copied.text := by
    rw [hcopiedText]
    exact Document.turns_of_cut hcut
  have hafter : copied.text.utf8ByteSize ≤ Offset.limit := by
    rw [hcopiedText, ← hplaced]
    exact hcopy
  intro offset hoffset
  refine ⟨?_, ?_, ?_⟩
  · intro hle
    rw [hretrace]
    exact hturns.retrace_front hafter hle
  · intro hlt hbehind
    rw [hretrace]
    exact hturns.retrace_back hsource hafter hlt hbehind hoffset
  · intro hlt hin
    rw [hretrace, Edit.retrace_of_covers (Nat.le_trans hturns.inserted_le hafter) ⟨hlt, hin⟩]
    simp only [removed_eq_empty_iff hcut]

/-- With two edits staged, the end of the copy is still answered by the end of the source as it
was, and there is no answer inside the replacement. -/
theorem retrace_with_two_staged :
    let earlier : List Call := [.openDocument "/a" "aé cd"]
    let later : List Call := [.edit ⟨0⟩ ⟨0, 1, Nat.zero_le 1⟩ "", .noteEdit ⟨0⟩ ⟨2, "", "zz"⟩]
    let workspace := (initial .default .stampAdvanced).after earlier
    let completion : Completion := ⟨⟨0⟩, ⟨1⟩, ⟨⟨1⟩, ⟨1⟩⟩, "aé XYZd"⟩
    let started := (workspace.start ⟨0⟩ ⟨4, 5, Nat.le_succ 4⟩ "XYZ").2
    let document : Document := .fresh ⟨0⟩ (some "/a") "aé cd" none
    let tracer : Tracer :=
      ⟨⟨1⟩, ⟨1⟩, ⟨0⟩, ⟨⟨4, "c", "XYZ"⟩, []⟩, [⟨0, "", "a"⟩, ⟨2, "zz", ""⟩], ⟨0⟩⟩
    (∀ call ∈ earlier ++ later, call.isOwn = true) ∧
      workspace.documents.find? ⟨0⟩ = some document ∧
      workspace.start ⟨0⟩ ⟨4, 5, Nat.le_succ 4⟩ "XYZ" = (.ok completion, started) ∧
      document.length ≤ Offset.limit ∧ completion.text.utf8ByteSize ≤ Offset.limit ∧
      (started.after later).tracer? completion.handle = some tracer ∧ tracer.log.size = 1 ∧
      (started.after later).retrace completion.handle 5 = .ok none ∧
      ∃ reached : Nat, reached ≤ document.length ∧
        (started.after later).retrace completion.handle 8 = .ok (some reached) ∧
        (Text.bytes completion.text).drop 8 = (Text.bytes document.text).drop reached := by
  intro earlier later workspace completion started document tracer
  have hown : ∀ call ∈ earlier ++ later, call.isOwn = true := by decide
  have hopen : workspace.documents.find? ⟨0⟩ = some document := by decide
  have hstart : workspace.start ⟨0⟩ ⟨4, 5, Nat.le_succ 4⟩ "XYZ" = (.ok completion, started) := rfl
  have hsource : document.length ≤ Offset.limit := by decide
  have hcopy : completion.text.utf8ByteSize ≤ Offset.limit := by decide
  have hlive : (started.after later).tracer? completion.handle = some tracer := by decide
  have hsize : tracer.log.size = 1 := rfl
  obtain ⟨copied, hcopied, hanswers⟩ :=
    retrace_before_merge .default .stampAdvanced hown hopen hstart hsource hcopy hlive hsize
  have htext : copied.text = completion.text := by
    have hsame : (started.after later).text? ⟨1⟩ = some completion.text := by decide
    rw [text?_of_open hcopied, Option.some.injEq] at hsame
    exact hsame
  have hlength : copied.length = 8 := congrArg String.utf8ByteSize htext
  refine ⟨hown, hopen, hstart, hsource, hcopy, hlive, hsize, ?_, ?_⟩
  · exact (hanswers 5 (by omega)).2.2 (by decide) (by decide)
  · rw [← htext]
    exact (hanswers 8 (by omega)).2.1 (by decide) (by decide)

end Retrace.Workspace
