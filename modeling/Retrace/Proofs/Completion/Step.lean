import Retrace.Completion.Call
import Retrace.Proofs.Completion.Change

/-!
# Calls as changes

A call on a workspace is at most two changes, and its reply tells whether an edit was accepted
or a completion started (`Coherent.step_advances`).  An edit can be made although the reply does not
accept it: then a named offset left its range on the way.

So a property of workspaces is shown for the six changes, and then holds after every run.
Where a property is about offsets, the texts of the run have to stay within their limit
(`FitsThrough`).
-/

namespace Retrace.Workspace

variable {workspace changed : Workspace} {source id : DocumentId} {edit : Edit} {span : Span}
  {replacement : String} {event : Option Event}

/-! ### What calls ask for and what replies report -/

/-- A call on the workspace itself, not past it on its documents. -/
def Call.isOwn : Call → Bool
  | .onDocuments _ => false
  | _ => true

/-- The edit of a source that a reply accepts. -/
def Call.acceptedOn (source : DocumentId) : Call → Reply → Option Edit
  | .noteEdit id edit, .noted => if id = source then some edit else none
  | .edit id _ _, .edited edit => if id = source then some edit else none
  | _, _ => none

/-- The call asks for a completion on a source in which a span is replaced.  A call at a caret
asks for the span that the caret and the text determine. -/
inductive Call.Starts (workspace : Workspace) : Call → DocumentId → Span → String → Prop
  | span (source : DocumentId) (span : Span) (replacement : String) :
      Starts workspace (.start source span replacement) source span replacement
  | caret {source : DocumentId} {caret : Nat} {document : Document} {span : Span}
      (hopen : workspace.documents.find? source = some document)
      (hspan : Span.between caret (Text.identifierEnd document.text caret) = .ok span) :
      Starts workspace (.startAt source caret) source span workspace.config.dummyIdentifier

/-- How a reply and an event belong together. -/
inductive Reports (workspace : Workspace) : Call → Reply → Option Event → Prop
  | quiet {call : Call} {reply : Reply} (hedit : ∀ id, call.acceptedOn id reply = none)
      (hstart : ∀ completion, reply ≠ .started completion) : Reports workspace call reply none
  | accepted {call : Call} {reply : Reply} {source : DocumentId} {edit : Edit}
      (hedit : ∀ id, call.acceptedOn id reply = if source = id then some edit else none)
      (hstart : ∀ completion, reply ≠ .started completion) :
      Reports workspace call reply (some (.edited source edit))
  | broken {call : Call} {reply : Reply} {source : DocumentId} {edit : Edit} {fault : Fault}
      (hfault : (workspace.sessions.sweep (Session.carry source edit)).1 = .error fault)
      (hedit : ∀ id, call.acceptedOn id reply = none)
      (hstart : ∀ completion, reply ≠ .started completion) :
      Reports workspace call reply (some (.edited source edit))
  | started {call : Call} {source copy : DocumentId} {span : Span} {replacement : String}
      {document : Document} {parts : Text.Cut} {completion : Completion} {tracer : Tracer}
      (hedit : ∀ id reply, call.acceptedOn id reply = none)
      (hcall : call.Starts workspace source span replacement)
      (hopen : workspace.documents.find? source = some document)
      (hcut : document.cut span = .ok parts)
      (htracer : tracer = .start ⟨workspace.registry.lastGeneration + 1⟩ copy source
        ⟨span.start, parts.inside, replacement⟩ document.committed)
      (hhandle : completion.handle = tracer.handle) :
      Reports workspace call (.started completion)
        (some (.started tracer (parts.replace replacement)))

/-- A reply with a completion tells which tracer was started, on what and with which edit. -/
theorem Reports.exists_tracer {call : Call} {completion : Completion}
    (h : Reports workspace call (.started completion) event) :
    ∃ source copy span replacement document parts tracer,
      call.Starts workspace source span replacement ∧
        workspace.documents.find? source = some document ∧ document.cut span = .ok parts ∧
        tracer = .start ⟨workspace.registry.lastGeneration + 1⟩ copy source
          ⟨span.start, parts.inside, replacement⟩ document.committed ∧
        completion.handle = tracer.handle ∧
        event = some (.started tracer (parts.replace replacement)) := by
  cases h with
  | quiet hedit hstart => exact absurd rfl (hstart completion)
  | accepted hedit hstart => exact absurd rfl (hstart completion)
  | broken hfault hedit hstart => exact absurd rfl (hstart completion)
  | started hedit hcall hopen hcut htracer hhandle =>
      exact ⟨_, _, _, _, _, _, _, hcall, hopen, hcut, htracer, hhandle, rfl⟩

/-- A tracer that was started is told by the reply. -/
theorem Reports.exists_completion {call : Call} {reply : Reply} {tracer : Tracer} {text : String}
    (h : Reports workspace call reply (some (.started tracer text))) :
    ∃ completion, reply = .started completion ∧ completion.handle = tracer.handle := by
  cases h with
  | started hedit hcall hopen hcut htracer hhandle => exact ⟨_, rfl, hhandle⟩

/-- At most two changes.  Only the first can be an event. -/
inductive Advances (workspace : Workspace) (event : Option Event) (changed : Workspace) : Prop
  | same (hevent : event = none) (heq : changed = workspace)
  | single (hchange : Change workspace event changed)
  | double {middle : Workspace} (hchange : Change workspace event middle)
      (hagain : Change middle none changed)
      (hfits : workspace.Fits → changed.Fits → middle.Fits)

/-! ### Calls one by one -/

theorem Shrinks.fits (h : Shrinks workspace changed) (hfits : workspace.Fits) : changed.Fits :=
  fits_iff.2 fun _ _ hopen => hfits.length_le (h.find?_eq_some hopen)

theorem fits_withCommit_iff {document : Document}
    (hopen : workspace.documents.find? source = some document) :
    (workspace.withCommit source document).Fits ↔ workspace.Fits := by
  have hlength : ∀ id, ((workspace.withCommit source document).documents.find? id).map
      Document.length = (workspace.documents.find? id).map Document.length := by
    intro id
    rw [find?_documents_withCommit]
    split
    · next heq =>
        rw [heq, hopen]
        rfl
    · rfl
  have hmap : ∀ w : Workspace, w.Fits ↔ ∀ id length,
      (w.documents.find? id).map Document.length = some length → length ≤ Offset.limit := by
    intro w
    simp only [fits_iff, Option.map_eq_some_iff]
    constructor
    · rintro h id length ⟨document, hfound, rfl⟩
      exact h id document hfound
    · intro h id document hfound
      exact h id _ ⟨document, hfound, rfl⟩
  rw [hmap, hmap]
  simp only [hlength]

/-- A reported edit is refused and changes nothing, or it is made, and accepted unless a named
offset leaves its range. -/
theorem noteEdit_advances (workspace : Workspace) (source : DocumentId) (edit : Edit) :
    (∃ failure, workspace.noteEdit source edit = (.error failure, workspace)) ∨
      Advances workspace (some (.edited source edit)) (workspace.noteEdit source edit).2 ∧
        ((workspace.noteEdit source edit).1 = .ok () ∨
          ∃ fault, (workspace.sessions.sweep (Session.carry source edit)).1 = .error fault ∧
            (workspace.noteEdit source edit).1 = .error (.broken fault)) := by
  rcases workspace.noteEdit_cases source edit with
    hrefused | ⟨document, edited, hopen, hcopy, happly, hmade⟩
  · exact Or.inl hrefused
  · have hchange : Change workspace (some (.edited source edit))
        (workspace.withEdit source edit edited) := .edited hopen hcopy happly
    rcases hmade with ⟨fault, hfault, heq⟩ | ⟨-, heq⟩ | ⟨-, heq⟩
    · rw [heq]
      exact Or.inr ⟨.single hchange, Or.inr ⟨fault, hfault, rfl⟩⟩
    · rw [heq]
      exact Or.inr ⟨.single hchange, Or.inl rfl⟩
    · rw [heq]
      exact Or.inr ⟨.double hchange (.committed find?_source_withEdit)
        fun _ hfits => (fits_withCommit_iff find?_source_withEdit).1 hfits, Or.inl rfl⟩

/-- A start is refused and changes nothing, or it registers a new tracer. -/
theorem start_advances {call : Call} (hcall : call.Starts workspace source span replacement)
    (hedit : ∀ id reply, call.acceptedOn id reply = none) :
    ∃ event, Reports workspace call
        (Reply.ofAnswer .started (workspace.start source span replacement).1) event ∧
      Advances workspace event (workspace.start source span replacement).2 := by
  rcases workspace.start_cases source span replacement with
    ⟨refusal, heq⟩ | ⟨document, parts, copy, placed, hopen, hcopy, hcut, hplaced, heq⟩
  · rw [heq]
    exact ⟨none, .quiet (fun id => hedit id _) (fun _ hstarted => by cases hstarted),
      .same rfl rfl⟩
  · rw [heq]
    exact ⟨_, .started hedit hcall hopen hcut rfl rfl,
      .single (.started hopen hcopy hcut hplaced rfl)⟩

namespace Coherent

theorem advances_openDocument (h : workspace.Coherent) (path text : String) :
    Advances workspace none (workspace.openDocument path text).2 := by
  rcases workspace.openDocument_cases path text with
    ⟨id, document, hid, hopen, hcopy, heq⟩ | ⟨hnone, heq⟩
  · have hends : Shrinks workspace (workspace.endSessionsOn id) :=
      h.shrinks_endSessionsOn h.sound (fun _ _ => rfl) (Or.inl rfl)
    rw [heq]
    refine Advances.double (.shrunk hends) ?_ fun hfits _ => hends.fits hfits
    rcases hends.sound.openPath_cases path text with
      ⟨other, found, hfound, hpath, -, hopened⟩ | ⟨hfree, hopened⟩
    · -- the path is that of the document whose sessions have ended
      have hwas := hends.find?_eq_some hfound
      have hsame : id = other := by
        have hother := h.sound.path_iff.2 ⟨found, hwas, hpath⟩
        rw [hid, Option.some.injEq] at hother
        exact hother
      subst hsame
      rw [hopen, Option.some.injEq] at hwas
      subst hwas
      rw [hopened]
      refine .rewritten hfound hcopy ?_
      intro copy tracer hactive
      rw [activeFor?_endSessionsOn, Option.filter_eq_some_iff] at hactive
      simpa using hactive.2
    · rw [hopened]
      exact .opened hfree
  · rw [heq]
    rcases h.sound.openPath_cases path text with
      ⟨other, found, hfound, hpath, hid, -⟩ | ⟨hfree, hopened⟩
    · have hnopath := (h.sound.filed hfound).path_of_copy (hnone other found hid hfound)
      rw [hpath] at hnopath
      cases hnopath
    · rw [hopened]
      exact Advances.single (.opened hfree)

theorem advances_closeDocument (h : workspace.Coherent) (id : DocumentId) :
    Advances workspace none (workspace.closeDocument id).2 := by
  rcases workspace.closeDocument_cases id with
    ⟨-, heq⟩ | ⟨document, hopen, hcopy, heq⟩ | ⟨document, source, hopen, hcopy, hlive⟩
  · rw [heq]
    exact Advances.same rfl rfl
  · rw [heq]
    refine Advances.single (.shrunk (h.shrinks_endSessionsOn (h.sound.close id) ?_ ?_))
    · intro other hne
      rw [Store.find?_close, if_neg hne]
    · refine Or.inr ⟨by rw [Store.find?_close, if_pos rfl], ?_⟩
      intro found hfound
      rw [hopen, Option.some.injEq] at hfound
      exact hfound ▸ hcopy
  · rcases hlive with ⟨hidle, heq⟩ | ⟨tracer, -, heq⟩
    · rw [heq]
      refine Advances.single (.shrunk (h.shrinks_closeCopy hopen hcopy rfl rfl ?_ ?_ rfl rfl rfl))
      · intro other
        split
        · next hsame => exact hsame ▸ hidle
        · rfl
      · intro other
        split
        · next hsame => exact h.session_none_iff.2 (hsame ▸ hidle)
        · rfl
    · rw [heq]
      exact Advances.single (.shrunk (h.shrinks_closeCopy hopen hcopy rfl rfl
        (fun _ => activeFor?_withoutSession id) (fun _ => sessions_withoutSession id) rfl rfl rfl))

/-- What a call can do. -/
theorem step_advances (h : workspace.Coherent) {call : Call} (hown : call.isOwn = true) :
    ∃ event, Reports workspace call (workspace.step call).1 event ∧
      Advances workspace event (workspace.step call).2 := by
  cases call with
  | openDocument path text =>
      exact ⟨none, .quiet (fun _ => rfl) (fun _ hstarted => by cases hstarted),
        h.advances_openDocument path text⟩
  | closeDocument id =>
      exact ⟨none, .quiet (fun _ => rfl) (fun _ hstarted => by cases hstarted),
        h.advances_closeDocument id⟩
  | noteEdit source edit =>
      simp only [step]
      rcases workspace.noteEdit_advances source edit with
        ⟨failure, heq⟩ | ⟨hadvances, hok | ⟨fault, hfault, hbroken⟩⟩
      · rw [heq]
        exact ⟨none, .quiet (fun _ => rfl) (fun _ hstarted => by cases hstarted), .same rfl rfl⟩
      · rw [hok]
        exact ⟨_, .accepted (fun _ => rfl) (fun _ hstarted => by cases hstarted), hadvances⟩
      · rw [hbroken]
        exact ⟨_, .broken hfault (fun _ => rfl) (fun _ hstarted => by cases hstarted), hadvances⟩
  | edit id span text =>
      simp only [step]
      rcases workspace.edit_cases id span text with ⟨refusal, heq⟩ | ⟨document, parts, -, -, heq⟩
      · rw [heq]
        exact ⟨none, .quiet (fun _ => rfl) (fun _ hstarted => by cases hstarted), .same rfl rfl⟩
      · rw [heq]
        rcases workspace.noteEdit_advances id ⟨span.start, parts.inside, text⟩ with
          ⟨failure, hnoted⟩ | ⟨hadvances, hok | ⟨fault, hfault, hbroken⟩⟩
        · rw [hnoted]
          exact ⟨none, .quiet (fun _ => rfl) (fun _ hstarted => by cases hstarted), .same rfl rfl⟩
        · rw [hok]
          exact ⟨_, .accepted (fun _ => rfl) (fun _ hstarted => by cases hstarted), hadvances⟩
        · rw [hbroken]
          exact ⟨_, .broken hfault (fun _ => rfl) (fun _ hstarted => by cases hstarted),
            hadvances⟩
  | commit source =>
      simp only [step]
      rcases workspace.commit_cases source with ⟨-, heq⟩ | ⟨document, count, hopen, heq⟩
      · rw [heq]
        exact ⟨none, .quiet (fun _ => rfl) (fun _ hstarted => by cases hstarted), .same rfl rfl⟩
      · rw [heq]
        exact ⟨none, .quiet (fun _ => rfl) (fun _ hstarted => by cases hstarted),
          .single (.committed hopen)⟩
  | start source span replacement =>
      exact start_advances (.span source span replacement) (fun _ _ => rfl)
  | startAt source caret =>
      simp only [step]
      rcases workspace.startAt_cases source caret with
        ⟨failure, heq⟩ | ⟨document, span, hopen, hspan, heq⟩
      · rw [heq]
        exact ⟨none, .quiet (fun _ => rfl) (fun _ hstarted => by cases hstarted), .same rfl rfl⟩
      · rw [heq]
        exact start_advances (.caret hopen hspan) (fun _ _ => rfl)
  | dispose handle =>
      refine ⟨none, .quiet (fun _ => rfl) (fun _ hstarted => by cases hstarted), ?_⟩
      simp only [step]
      rcases workspace.dispose_cases handle with ⟨-, heq⟩ | ⟨tracer, -, heq⟩
      · rw [heq]
        exact .same rfl rfl
      · rw [heq]
        exact .single (.shrunk (h.shrinks_withoutSession handle.copy))
  | disposeAll =>
      exact ⟨none, .quiet (fun _ => rfl) (fun _ hstarted => by cases hstarted),
        .single (.shrunk h.shrinks_disposeAll)⟩
  | onDocuments call => cases hown

end Coherent

/-! ### Runs -/

theorem Advances.coherent (h : Advances workspace event changed)
    (hcoherent : workspace.Coherent) : changed.Coherent := by
  cases h with
  | same hevent heq => exact heq ▸ hcoherent
  | single hchange => exact hcoherent.change hchange
  | double hchange hagain hfits => exact (hcoherent.change hchange).change hagain

theorem Advances.policy_eq (h : Advances workspace event changed) :
    changed.policy = workspace.policy := by
  cases h with
  | same hevent heq => rw [heq]
  | single hchange => exact hchange.policy_eq
  | double hchange hagain hfits => exact hagain.policy_eq.trans hchange.policy_eq

theorem Advances.lastGeneration_le (h : Advances workspace event changed) :
    workspace.registry.lastGeneration ≤ changed.registry.lastGeneration := by
  cases h with
  | same hevent heq => exact heq ▸ Nat.le_refl _
  | single hchange => exact hchange.lastGeneration_le
  | double hchange hagain hfits =>
      exact Nat.le_trans hchange.lastGeneration_le hagain.lastGeneration_le

theorem Advances.issued {tracer : Tracer} {text : String}
    (h : Advances workspace (some (.started tracer text)) changed) :
    tracer.id.number ≤ changed.registry.lastGeneration := by
  cases h with
  | same hevent heq => cases hevent
  | single hchange => exact hchange.issued
  | double hchange hagain hfits => exact Nat.le_trans hchange.issued hagain.lastGeneration_le

theorem Coherent.step (h : workspace.Coherent) {call : Call} (hown : call.isOwn = true) :
    (workspace.step call).2.Coherent := by
  obtain ⟨event, -, hadvances⟩ := h.step_advances hown
  exact hadvances.coherent h

theorem Coherent.after (h : workspace.Coherent) {calls : List Call}
    (hown : ∀ call ∈ calls, call.isOwn = true) : (workspace.after calls).Coherent := by
  induction calls generalizing workspace with
  | nil => exact h
  | cons call rest ih =>
      rw [List.forall_mem_cons] at hown
      exact ih (h.step hown.1) hown.2

theorem Coherent.policy_after (h : workspace.Coherent) {calls : List Call}
    (hown : ∀ call ∈ calls, call.isOwn = true) :
    (workspace.after calls).policy = workspace.policy := by
  induction calls generalizing workspace with
  | nil => rfl
  | cons call rest ih =>
      rw [List.forall_mem_cons] at hown
      obtain ⟨event, -, hadvances⟩ := h.step_advances hown.1
      exact (ih (h.step hown.1) hown.2).trans hadvances.policy_eq

theorem Coherent.lastGeneration_le_after (h : workspace.Coherent) {calls : List Call}
    (hown : ∀ call ∈ calls, call.isOwn = true) :
    workspace.registry.lastGeneration ≤ (workspace.after calls).registry.lastGeneration := by
  induction calls generalizing workspace with
  | nil => exact Nat.le_refl _
  | cons call rest ih =>
      rw [List.forall_mem_cons] at hown
      obtain ⟨event, -, hadvances⟩ := h.step_advances hown.1
      exact Nat.le_trans hadvances.lastGeneration_le (ih (h.step hown.1) hown.2)

/-- Every reply of a run is that of one of its calls. -/
theorem exists_call_of_reply {reply : Reply} {calls : List Call}
    (hreply : reply ∈ (workspace.run calls).1) :
    ∃ front call back, calls = front ++ call :: back ∧
      ((workspace.after front).step call).1 = reply := by
  induction calls generalizing workspace with
  | nil => cases hreply
  | cons call rest ih =>
      have hreplies : reply = (workspace.step call).1 ∨
          reply ∈ ((workspace.step call).2.run rest).1 := List.mem_cons.1 hreply
      rcases hreplies with hfirst | hrest
      · exact ⟨[], call, rest, rfl, hfirst.symm⟩
      · obtain ⟨front, later, back, rfl, hlater⟩ := ih hrest
        exact ⟨call :: front, later, back, rfl, hlater⟩

/-- The texts stay within the limit of offsets all through a run. -/
def FitsThrough (workspace : Workspace) : List Call → Prop
  | [] => workspace.Fits
  | call :: rest => workspace.Fits ∧ (workspace.step call).2.FitsThrough rest

instance decidableFitsThrough (workspace : Workspace) :
    (calls : List Call) → Decidable (workspace.FitsThrough calls)
  | [] => inferInstanceAs (Decidable workspace.Fits)
  | call :: rest =>
      have := decidableFitsThrough (workspace.step call).2 rest
      inferInstanceAs (Decidable (_ ∧ _))

theorem FitsThrough.fits {calls : List Call} (h : workspace.FitsThrough calls) :
    workspace.Fits := by
  cases calls with
  | nil => exact h
  | cons call rest => exact h.1

theorem FitsThrough.fits_after {calls : List Call} (h : workspace.FitsThrough calls) :
    (workspace.after calls).Fits := by
  induction calls generalizing workspace with
  | nil => exact h
  | cons call rest ih => exact ih h.2

theorem fitsThrough_append {front back : List Call} :
    workspace.FitsThrough (front ++ back) ↔
      workspace.FitsThrough front ∧ (workspace.after front).FitsThrough back := by
  induction front generalizing workspace with
  | nil => exact ⟨fun h => ⟨h.fits, h⟩, fun h => h.2⟩
  | cons call rest ih =>
      rw [List.cons_append, FitsThrough, FitsThrough, ih, and_assoc, after_cons]

/-- What every change of a coherent workspace keeps, as long as texts are within the limit. -/
def Kept (property : Workspace → Prop) : Prop :=
  ∀ {workspace changed event}, workspace.Coherent → workspace.Fits → changed.Fits →
    Change workspace event changed → property workspace → property changed

theorem Kept.advances {property : Workspace → Prop} (hkept : Kept property)
    (hcoherent : workspace.Coherent) (hfits : workspace.Fits) (hfits' : changed.Fits)
    (h : Advances workspace event changed) (hholds : property workspace) : property changed := by
  cases h with
  | same hevent heq => exact heq ▸ hholds
  | single hchange => exact hkept hcoherent hfits hfits' hchange hholds
  | double hchange hagain hmiddle =>
      have hfitsMiddle := hmiddle hfits hfits'
      exact hkept (hcoherent.change hchange) hfitsMiddle hfits' hagain
        (hkept hcoherent hfits hfitsMiddle hchange hholds)

/-- A property that every change keeps holds after every run. -/
theorem Kept.after {property : Workspace → Prop} (hkept : Kept property)
    (hcoherent : workspace.Coherent) {calls : List Call}
    (hown : ∀ call ∈ calls, call.isOwn = true) (hfits : workspace.FitsThrough calls)
    (hholds : property workspace) : property (workspace.after calls) := by
  induction calls generalizing workspace with
  | nil => exact hholds
  | cons call rest ih =>
      rw [List.forall_mem_cons] at hown
      obtain ⟨event, -, hadvances⟩ := hcoherent.step_advances hown.1
      exact ih (hadvances.coherent hcoherent) hown.2 hfits.2
        (hkept.advances hcoherent hfits.1 hfits.2.fits hadvances hholds)

end Retrace.Workspace
