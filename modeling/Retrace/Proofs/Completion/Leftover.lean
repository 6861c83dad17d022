import Retrace.Proofs.Completion.Lifetime
import Retrace.Proofs.Completion.Reuse

/-!
# Copies that are left open

A workspace closes the copies that it lists, one for each source: all of them when everything is
disposed of, and that of one source when the source is closed or its path is opened anew.  A copy
that a completion has made is listed from then on, for this source alone (`Assigned`).  There is one
call that takes it off the list and leaves it open: somebody has made a second copy of the source
past the workspace and closes it through the workspace, which then forgets the copy in use instead
(`forgets`).  A copy that was forgotten is never listed again (`Assigned.not_forgets`), and one that
is open and was not forgotten is still listed (`Assigned.listed_after`).  So exactly the forgotten
copies are left open (`copy_left_open_iff_forgotten`).
-/

namespace Retrace.Workspace

variable {workspace changed : Workspace} {source other copy id : DocumentId} {document : Document}
  {completion : Completion} {call : Call} {calls : List Call}

/-! ### Forgetting a copy -/

/-- A call closes another copy of the source that a copy is in use for, and the workspace forgets
the one in use. -/
def forgets (workspace : Workspace) (copy : DocumentId) : Call → Bool
  | .closeDocument id =>
      id ≠ copy && ((workspace.documents.find? id).bind Document.copyOf).any fun source =>
        workspace.reusable? source = some copy
  | _ => false

/-- Some call of a run forgets a copy. -/
def Forgets (workspace : Workspace) (copy : DocumentId) : List Call → Prop
  | [] => False
  | call :: rest =>
      workspace.forgets copy call = true ∨ (workspace.step call).2.Forgets copy rest

instance decidableForgets (workspace : Workspace) (copy : DocumentId) :
    (calls : List Call) → Decidable (workspace.Forgets copy calls)
  | [] => inferInstanceAs (Decidable False)
  | call :: rest =>
      have := decidableForgets (workspace.step call).2 copy rest
      inferInstanceAs (Decidable (_ ∨ _))

theorem forgets_iff : workspace.forgets copy call = true ↔
    ∃ id source document, call = .closeDocument id ∧ id ≠ copy ∧
      workspace.documents.find? id = some document ∧ document.copyOf = some source ∧
      workspace.reusable? source = some copy := by
  constructor
  · intro hforgets
    cases call with
    | closeDocument id =>
        simp only [forgets, Bool.and_eq_true, decide_eq_true_eq, Option.any_eq_true,
          Option.bind_eq_some_iff] at hforgets
        obtain ⟨hne, source, ⟨document, hopen, hcopy⟩, hreusable⟩ := hforgets
        exact ⟨id, source, document, rfl, hne, hopen, hcopy, hreusable⟩
    | _ => cases hforgets
  · rintro ⟨id, source, document, rfl, hne, hopen, hcopy, hreusable⟩
    simp [forgets, hne, hopen, hcopy, hreusable]

theorem forgets_append {front back : List Call} :
    workspace.Forgets copy (front ++ back) ↔
      workspace.Forgets copy front ∨ (workspace.after front).Forgets copy back := by
  induction front generalizing workspace with
  | nil => exact (or_iff_right id).symm
  | cons call rest ih => exact (or_congr_right ih).trans or_assoc.symm

/-- The workspace makes no second copy of a source, so without calls past it none is forgotten. -/
theorem Coherent.not_forgets (h : workspace.Coherent) (hown : ∀ call ∈ calls, call.isOwn = true) :
    ¬ workspace.Forgets copy calls := by
  induction calls generalizing workspace with
  | nil => exact id
  | cons call rest ih =>
      rw [List.forall_mem_cons] at hown
      rintro (hforgets | hrest)
      · obtain ⟨id, source, document, rfl, hne, hopen, hcopy, hreusable⟩ := forgets_iff.1 hforgets
        obtain ⟨hlisted, -⟩ := reusable?_eq_some_iff.1 hreusable
        rw [h.copy_listed hopen hcopy, Option.some.injEq] at hlisted
        exact hne hlisted
      · exact ih (h.step hown.1) hown.2 hrest

/-! ### The list of copies -/

theorem listed_of_endSessionsOn
    (hlisted : (workspace.endSessionsOn id).copies.find? source = some copy) :
    workspace.copies.find? source = some copy := by
  rw [copies_endSessionsOn] at hlisted
  split at hlisted
  · cases hlisted
  · exact hlisted

theorem listed_of_erase (hlisted : (workspace.copies.erase other).find? source = some copy) :
    workspace.copies.find? source = some copy := by
  rw [Table.find?_erase] at hlisted
  split at hlisted
  · cases hlisted
  · exact hlisted

/-- Whichever copy of a source is closed, the entry of the source goes. -/
theorem copies_closeDocument (hopen : workspace.documents.find? id = some document)
    (hcopy : document.copyOf = some source) :
    (workspace.step (.closeDocument id)).2.copies = workspace.copies.erase source := by
  simp only [step]
  rcases workspace.closeDocument_cases id with
    ⟨hnone, -⟩ | ⟨found, hfound, hnocopy, -⟩ | ⟨found, other, hfound, hof, hmade⟩
  · rw [hnone] at hopen
    cases hopen
  · rw [hopen, Option.some.injEq] at hfound
    rw [← hfound, hcopy] at hnocopy
    cases hnocopy
  · rw [hopen, Option.some.injEq] at hfound
    rw [← hfound, hcopy, Option.some.injEq] at hof
    subst hof
    rcases hmade with ⟨-, heq⟩ | ⟨tracer, -, heq⟩
    · rw [heq]
    · rw [heq]
      rfl

/-- What a call can make of the list of copies: it lists nothing that was not listed, or it lists a
new number for an open document. -/
theorem Effect.copies_cases (heffect : workspace.Effect call changed) :
    (∀ {source copy}, changed.copies.find? source = some copy →
      workspace.copies.find? source = some copy) ∨
    ∃ source document, workspace.documents.find? source = some document ∧
      workspace.documents.nextIndex < changed.documents.nextIndex ∧
      ∀ other, changed.copies.find? other =
        if other = source then some ⟨workspace.documents.nextIndex⟩
        else workspace.copies.find? other := by
  cases heffect with
  | same => exact Or.inl fun hlisted => hlisted
  | opened path text => exact Or.inl fun hlisted => hlisted
  | reopened id path text => exact Or.inl listed_of_endSessionsOn
  | @closed id document hcall hopen hnocopy =>
      left
      intro source copy hlisted
      let closed : Workspace := { workspace with documents := (workspace.documents.close id).2 }
      have hbefore : closed.copies.find? source = some copy := listed_of_endSessionsOn hlisted
      exact hbefore
  | closedCopy hcall hopen hcopy hidle => exact Or.inl listed_of_erase
  | closedSession hcall hopen hcopy => exact Or.inl listed_of_erase
  | edited hopen happly => exact Or.inl fun hlisted => hlisted
  | editedCommitted hopen happly => exact Or.inl fun hlisted => hlisted
  | committed hopen => exact Or.inl fun hlisted => hlisted
  | @started source copy text creation document placed session hopen hplaced hturns =>
      rcases hplaced.documents with ⟨old, hreused, -, -⟩ | ⟨-, hnew, heq⟩
      · left
        intro other copy hlisted
        replace hlisted : placed.copies.find? other = some copy := hlisted
        rw [hplaced.copies] at hlisted
        split at hlisted
        · next hsame =>
            cases hlisted
            exact hsame ▸ hreused
        · exact hlisted
      · right
        refine ⟨source, document, hopen, ?_, ?_⟩
        · change workspace.documents.nextIndex < placed.documents.nextIndex
          rw [heq]
          exact Nat.lt_succ_self _
        · exact hnew ▸ hplaced.copies
  | disposed copy => exact Or.inl fun hlisted => hlisted
  | disposedAll => exact Or.inl fun hlisted => by cases hlisted
  | onDocuments hcall => exact Or.inl fun hlisted => hlisted

/-- Every listed copy has a number that was given out, above that of its source, and is listed
once. -/
structure Assigned (workspace : Workspace) : Prop where
  sound : workspace.documents.Sound
  copy_given : ∀ {source copy}, workspace.copies.find? source = some copy →
    copy.index < workspace.documents.nextIndex
  source_lt : ∀ {source copy}, workspace.copies.find? source = some copy →
    source.index < copy.index
  source_eq : ∀ {source other copy}, workspace.copies.find? source = some copy →
    workspace.copies.find? other = some copy → source = other

theorem assigned_initial (config : Config) (policy : CommitPolicy) :
    (initial config policy).Assigned where
  sound := Store.sound_empty
  copy_given h := by cases h
  source_lt h := by cases h
  source_eq h := by cases h

namespace Assigned

theorem effect (h : workspace.Assigned) (heffect : workspace.Effect call changed) :
    changed.Assigned := by
  have hages := heffect.ages h.sound
  rcases heffect.copies_cases with hkept | ⟨source, document, hopen, hnext, hcopies⟩
  · exact {
      sound := hages.sound
      copy_given := fun hlisted =>
        Nat.lt_of_lt_of_le (h.copy_given (hkept hlisted)) hages.nextIndex_le
      source_lt := fun hlisted => h.source_lt (hkept hlisted)
      source_eq := fun hlisted hother => h.source_eq (hkept hlisted) (hkept hother) }
  · -- the new number is not listed yet
    have hfresh : ∀ {other}, workspace.copies.find? other ≠ some ⟨workspace.documents.nextIndex⟩ :=
      fun hlisted => Nat.lt_irrefl _ (h.copy_given hlisted)
    refine ⟨hages.sound, ?_, ?_, ?_⟩
    · intro other copy hlisted
      rw [hcopies] at hlisted
      split at hlisted
      · cases hlisted
        exact hnext
      · exact Nat.lt_of_lt_of_le (h.copy_given hlisted) hages.nextIndex_le
    · intro other copy hlisted
      rw [hcopies] at hlisted
      split at hlisted
      · next hsame =>
          cases hlisted
          exact hsame ▸ h.sound.index_lt hopen
      · exact h.source_lt hlisted
    · intro first second copy hfirst hsecond
      rw [hcopies] at hfirst hsecond
      split at hfirst
      · next hsame =>
          cases hfirst
          split at hsecond
          · next hsame' => exact hsame.trans hsame'.symm
          · exact absurd hsecond hfresh
      · split at hsecond
        · cases hsecond
          exact absurd hfirst hfresh
        · exact h.source_eq hfirst hsecond

theorem step (h : workspace.Assigned) (call : Call) : (workspace.step call).2.Assigned :=
  h.effect (step_effect workspace call)

theorem after (h : workspace.Assigned) (calls : List Call) : (workspace.after calls).Assigned := by
  induction calls generalizing workspace with
  | nil => exact h
  | cons call rest ih => exact ih (h.step call)

/-! ### What was forgotten is not listed again -/

/-- A number that was given out is not listed anew. -/
theorem not_listed_after (h : workspace.Assigned)
    (hgiven : copy.index < workspace.documents.nextIndex)
    (hnone : ∀ source, workspace.copies.find? source ≠ some copy) (calls : List Call) :
    ∀ source, (workspace.after calls).copies.find? source ≠ some copy := by
  induction calls generalizing workspace with
  | nil => exact hnone
  | cons call rest ih =>
      have heffect := step_effect workspace call
      apply ih (h.step call)
      · exact Nat.lt_of_lt_of_le hgiven (heffect.ages h.sound).nextIndex_le
      · intro source hlisted
        rcases heffect.copies_cases with hkept | ⟨_, _, -, -, hcopies⟩
        · exact hnone source (hkept hlisted)
        · rw [hcopies] at hlisted
          split at hlisted
          · cases hlisted
            exact Nat.lt_irrefl _ hgiven
          · exact hnone source hlisted

/-- A copy that is forgotten was listed for one source, and this entry goes. -/
theorem not_listed_of_forgets (h : workspace.Assigned)
    (hforgets : workspace.forgets copy call = true) (source : DocumentId) :
    (workspace.step call).2.copies.find? source ≠ some copy := by
  obtain ⟨id, forgotten, document, rfl, -, hopen, hcopy, hreusable⟩ := forgets_iff.1 hforgets
  obtain ⟨hlisted, -⟩ := reusable?_eq_some_iff.1 hreusable
  intro hstill
  rw [copies_closeDocument hopen hcopy, Table.find?_erase] at hstill
  split at hstill
  · cases hstill
  · next hne => exact hne (h.source_eq hstill hlisted)

theorem not_forgets (h : workspace.Assigned)
    (hlisted : (workspace.after calls).copies.find? source = some copy) :
    ¬ workspace.Forgets copy calls := by
  induction calls generalizing workspace with
  | nil => exact id
  | cons call rest ih =>
      rintro (hforgets | hrest)
      · obtain ⟨-, _, -, -, -, -, -, hreusable⟩ := forgets_iff.1 hforgets
        have hgiven := h.copy_given (reusable?_eq_some_iff.1 hreusable).1
        have hages := ages_step h.sound call
        exact (h.step call).not_listed_after (Nat.lt_of_lt_of_le hgiven hages.nextIndex_le)
          (h.not_listed_of_forgets hforgets) rest source hlisted
      · exact ih (h.step call) hlisted hrest

end Assigned

/-! ### What is open and was not forgotten is listed -/

theorem contains_endSessionsOn :
    (workspace.endSessionsOn source).documents.contains copy = true ↔
      workspace.documents.contains copy = true ∧ workspace.copies.find? source ≠ some copy := by
  rw [Store.contains, find?_documents_endSessionsOn, Store.contains]
  split
  · next hlisted => simp [hlisted]
  · next hnot => simp [hnot]

theorem contains_disposeAll :
    workspace.disposeAll.documents.contains copy = true ↔
      workspace.documents.contains copy = true ∧
        ∀ source, workspace.copies.find? source ≠ some copy := by
  rw [Store.contains, find?_documents_disposeAll, Store.contains]
  split
  · next hlisted =>
      obtain ⟨source, hsource⟩ := mem_values_iff.1 hlisted
      refine iff_of_false Bool.false_ne_true ?_
      intro hopen
      exact hopen.2 source hsource
  · next hnot =>
      refine (and_iff_left ?_).symm
      intro source hlisted
      exact hnot (mem_values_iff.2 ⟨source, hlisted⟩)

/-- A copy stays listed when the sessions on a source end, or it is closed. -/
theorem listed_endSessionsOn (hlisted : workspace.copies.find? source = some copy)
    (hopen : (workspace.endSessionsOn id).documents.contains copy = true) :
    (workspace.endSessionsOn id).copies.find? source = some copy := by
  have hne : source ≠ id := by
    rintro rfl
    exact (contains_endSessionsOn.1 hopen).2 hlisted
  exact copies_endSessionsOn.trans ((if_neg hne).trans hlisted)

/-- When a copy of a source is closed, the copy in use is that copy, or it is forgotten, or it is in
use for another source. -/
theorem listed_erase (hlisted : workspace.copies.find? source = some copy)
    (hopen : workspace.documents.find? id = some document) (hcopy : document.copyOf = some other)
    (hstill : (workspace.documents.close id).2.contains copy = true)
    (hkept : workspace.forgets copy (.closeDocument id) = false) :
    (workspace.copies.erase other).find? source = some copy := by
  have hne : source ≠ other := by
    rintro rfl
    rw [Store.contains, Store.find?_close] at hstill
    split at hstill
    · cases hstill
    · next hclosed =>
        have hreusable : workspace.reusable? source = some copy :=
          reusable?_eq_some_iff.2 ⟨hlisted, Option.isSome_iff_exists.1 hstill⟩
        have hforgets := forgets_iff.2
          ⟨id, source, document, rfl, Ne.symm hclosed, hopen, hcopy, hreusable⟩
        rw [hkept] at hforgets
        cases hforgets
  exact (Table.find?_erase ..).trans ((if_neg hne).trans hlisted)

namespace Assigned

theorem listed_effect (h : workspace.Assigned) (heffect : workspace.Effect call changed)
    (hlisted : workspace.copies.find? source = some copy)
    (hstill : changed.documents.contains copy = true)
    (hkept : workspace.forgets copy call = false) : changed.copies.find? source = some copy := by
  have hgiven := h.copy_given hlisted
  cases heffect with
  | same => exact hlisted
  | opened path text => exact hlisted
  | reopened id path text =>
      have hages := ages_endSessionsOn h.sound id
      have hopened := hages.sound.ages_openPath path text
      have hended := hopened.contains_old (Nat.lt_of_lt_of_le hgiven hages.nextIndex_le) hstill
      exact listed_endSessionsOn hlisted hended
  | @closed id document hcall hopen hnocopy =>
      let closed : Workspace := { workspace with documents := (workspace.documents.close id).2 }
      have hclosed : closed.copies.find? source = some copy := hlisted
      exact listed_endSessionsOn hclosed hstill
  | closedCopy hcall hopen hcopy hidle =>
      exact listed_erase hlisted hopen hcopy hstill (hcall ▸ hkept)
  | closedSession hcall hopen hcopy =>
      exact listed_erase hlisted hopen hcopy hstill (hcall ▸ hkept)
  | edited hopen happly => exact hlisted
  | editedCommitted hopen happly => exact hlisted
  | committed hopen => exact hlisted
  | @started id used text creation document placed session hopen hplaced hturns =>
      refine (hplaced.copies source).trans ?_
      split
      · next hsame =>
          -- the copy in use is open, so the text is placed in it
          have hbefore := (hplaced.ages h.sound).contains_old hgiven hstill
          obtain ⟨old, hold⟩ := Option.isSome_iff_exists.1 hbefore
          rw [hplaced.eq_copy (hsame ▸ hlisted) hold]
      · exact hlisted
  | disposed copy => exact hlisted
  | disposedAll => exact absurd hlisted ((contains_disposeAll.1 hstill).2 source)
  | onDocuments hcall => exact hlisted

/-- A listed copy stays listed as long as it is open and no call forgets it. -/
theorem listed_after (h : workspace.Assigned)
    (hlisted : workspace.copies.find? source = some copy)
    (hstill : (workspace.after calls).documents.contains copy = true)
    (hkept : ¬ workspace.Forgets copy calls) :
    (workspace.after calls).copies.find? source = some copy := by
  induction calls generalizing workspace with
  | nil => exact hlisted
  | cons call rest ih =>
      obtain ⟨hcall, hrest⟩ := not_or.1 hkept
      have hstep := h.step call
      have hgiven : copy.index < (workspace.step call).2.documents.nextIndex :=
        Nat.lt_of_lt_of_le (h.copy_given hlisted) (ages_step h.sound call).nextIndex_le
      have hopen := (ages_after hstep.sound rest).contains_old hgiven hstill
      exact ih hstep (h.listed_effect (step_effect workspace call) hlisted hopen
        (Bool.not_eq_true _ ▸ hcall)) hstill hrest

end Assigned

/-! ### Copies that completions have made -/

/-- A completion of a run has listed its copy, for a source that is no copy. -/
theorem exists_started (hgiven : .started completion ∈ (workspace.run calls).1) :
    ∃ front call back, calls = front ++ call :: back ∧
      let started := ((workspace.after front).step call).2
      started.copies.find? completion.source = some completion.copy ∧
        ∃ document, (workspace.after front).documents.find? completion.source = some document ∧
          document.copyOf = none := by
  obtain ⟨front, call, back, heq, hreply⟩ := exists_call_of_reply hgiven
  obtain ⟨document, creation, placed, session, hopen, hnocopy, hplaced, -, hchanged⟩ :=
    (launches_of_started hreply).2
  refine ⟨front, call, back, heq, ?_, document, hopen, hnocopy⟩
  rw [hchanged]
  exact (hplaced.copies _).trans (if_pos rfl)

namespace Assigned

/-- An open copy of a completion is listed for its source exactly if it was not forgotten. -/
theorem listed_iff_not_forgets (h : workspace.Assigned)
    (hgiven : .started completion ∈ (workspace.run calls).1)
    (hstill : (workspace.after calls).documents.contains completion.copy = true) :
    (workspace.after calls).copies.find? completion.source = some completion.copy ↔
      ¬ workspace.Forgets completion.copy calls := by
  constructor
  · exact h.not_forgets
  · intro hkept
    obtain ⟨front, call, back, rfl, hlisted, -⟩ := exists_started hgiven
    rw [after_append, after_cons] at hstill ⊢
    apply ((h.after front).step call).listed_after hlisted hstill
    intro hforgets
    exact hkept (forgets_append.2 (Or.inr (Or.inr hforgets)))

theorem given_of_started (h : workspace.Assigned)
    (hgiven : .started completion ∈ (workspace.run calls).1) :
    completion.copy.index < (workspace.after calls).documents.nextIndex := by
  obtain ⟨front, call, back, rfl, hlisted, -⟩ := exists_started hgiven
  have hstarted := (h.after front).step call
  rw [after_append, after_cons]
  have hages := ages_after hstarted.sound back
  exact Nat.lt_of_lt_of_le (hstarted.copy_given hlisted) hages.nextIndex_le

theorem copy_ne_source (h : workspace.Assigned)
    (hgiven : .started completion ∈ (workspace.run calls).1) :
    completion.copy ≠ completion.source := by
  obtain ⟨front, call, back, -, hlisted, -⟩ := exists_started hgiven
  have hlt := ((h.after front).step call).source_lt hlisted
  intro heq
  rw [heq] at hlt
  exact Nat.lt_irrefl _ hlt

theorem source_nocopy (h : workspace.Assigned)
    (hgiven : .started completion ∈ (workspace.run calls).1)
    (hopen : (workspace.after calls).documents.find? completion.source = some document) :
    document.copyOf = none := by
  obtain ⟨front, call, back, rfl, -, original, hfound, hnocopy⟩ := exists_started hgiven
  have hbefore := (h.after front).sound
  rw [after_append] at hopen
  have hages := ages_after hbefore (call :: back)
  exact (hages.copyOf_eq (hbefore.index_lt hfound) hfound hopen).trans hnocopy

end Assigned

/-- **Which copies are left open.**  Calls are made on a workspace and past it, on its documents,
and one of them started a completion.  When everything is disposed of then, the copy of the
completion is left open exactly if it was open and some call had forgotten it.  The same holds when
the source of the completion is closed while it is open, and when the path of the open source is
opened anew.  Without calls past the workspace no copy is forgotten. -/
theorem copy_left_open_iff_forgotten (config : Config) (policy : CommitPolicy)
    (hgiven : .started completion ∈ ((initial config policy).run calls).1) :
    let workspace := (initial config policy).after calls
    let left : Prop := workspace.documents.contains completion.copy = true ∧
      (initial config policy).Forgets completion.copy calls
    (workspace.disposeAll.documents.contains completion.copy = true ↔ left) ∧
      ((workspace.closeDocument completion.source).1 = true →
        ((workspace.closeDocument completion.source).2.documents.contains completion.copy = true ↔
          left)) ∧
      (∀ original path text, workspace.documents.find? completion.source = some original →
        original.path = some path →
          ((workspace.openDocument path text).2.documents.contains completion.copy = true ↔
            left)) ∧
      ((∀ call ∈ calls, call.isOwn = true) →
        ¬ (initial config policy).Forgets completion.copy calls) := by
  intro workspace left
  have hinitial := assigned_initial config policy
  have h : workspace.Assigned := hinitial.after calls
  have hended : (workspace.endSessionsOn completion.source).documents.contains completion.copy =
      true ↔ left := by
    rw [contains_endSessionsOn]
    apply and_congr_right
    intro hstill
    rw [Ne, hinitial.listed_iff_not_forgets hgiven hstill, not_not]
  refine ⟨?_, ?_, ?_, (coherent_initial config policy).not_forgets⟩
  · rw [contains_disposeAll]
    apply and_congr_right
    intro hstill
    constructor
    · intro hnone
      apply Decidable.of_not_not
      intro hkept
      exact hnone _ ((hinitial.listed_iff_not_forgets hgiven hstill).2 hkept)
    · intro hforgets other hlisted
      exact hinitial.not_forgets hlisted hforgets
  · intro hclosed
    rcases workspace.closeDocument_cases completion.source with
      ⟨-, heq⟩ | ⟨document, hopen, -, heq⟩ | ⟨document, source, hopen, hcopy, -⟩
    · rw [heq] at hclosed
      cases hclosed
    · rw [← hended, heq, contains_endSessionsOn, contains_endSessionsOn]
      apply and_congr_left'
      rw [Store.contains, Store.find?_close, if_neg (hinitial.copy_ne_source hgiven)]
      rfl
    · rw [hinitial.source_nocopy hgiven hopen] at hcopy
      cases hcopy
  · intro original path text hopen hpath
    have hid : workspace.documents.idForPath? path = some completion.source :=
      h.sound.path_iff.2 ⟨original, hopen, hpath⟩
    have hnocopy := hinitial.source_nocopy hgiven hopen
    rcases workspace.openDocument_cases path text with
      ⟨id, document, hfound, -, -, heq⟩ | ⟨hnone, -⟩
    · rw [hid, Option.some.injEq] at hfound
      subst hfound
      rw [← hended, heq]
      have hages := ages_endSessionsOn h.sound completion.source
      have hgrows := hages.sound.grows_openPath path text
      rw [hgrows.contains_eq (Nat.lt_of_lt_of_le (hinitial.given_of_started hgiven)
        hages.nextIndex_le)]
    · exact absurd hnocopy (hnone _ original hid hopen)

/-- Somebody makes a copy of their own and closes it past the workspace, and a completion is started
on another document and on the first one again.  No copy is forgotten, and each way of ending the
sessions closes the copies that completions have made. -/
theorem copy_closed_past_workspace :
    let calls : List Call := [.openDocument "/a" "ab", .start ⟨0⟩ ⟨1, 1, Nat.le_refl 1⟩ "X",
      .onDocuments (.createCopy ⟨0⟩ "c"), .onDocuments (.close ⟨2⟩),
      .onDocuments (.openPath "/b" "cd"), .start ⟨3⟩ ⟨0, 0, Nat.le_refl 0⟩ "Z",
      .start ⟨0⟩ ⟨0, 1, Nat.le_succ 0⟩ "Y"]
    let completion : Completion := ⟨⟨0⟩, ⟨1⟩, ⟨⟨1⟩, ⟨3⟩⟩, "Yb"⟩
    let workspace := (initial .default .stampAdvanced).after calls
    .started completion ∈ ((initial .default .stampAdvanced).run calls).1 ∧
      workspace.documents.contains ⟨1⟩ = true ∧
      ¬ (initial .default .stampAdvanced).Forgets ⟨1⟩ calls ∧
      workspace.disposeAll.documents.contains ⟨1⟩ = false ∧
      (workspace.closeDocument ⟨0⟩).1 = true ∧
      (workspace.closeDocument ⟨0⟩).2.documents.contains ⟨1⟩ = false ∧
      (workspace.openDocument "/a" "ef").2.documents.contains ⟨1⟩ = false := by
  intro calls completion workspace
  have hgiven : .started completion ∈ ((initial .default .stampAdvanced).run calls).1 := by decide
  have hkept : ¬ (initial .default .stampAdvanced).Forgets ⟨1⟩ calls := by decide
  have hclosed : (workspace.closeDocument ⟨0⟩).1 = true := by decide
  have hsource : workspace.documents.find? ⟨0⟩ =
      some ⟨⟨0⟩, some "/a", "ab", ⟨0⟩, ⟨0⟩, none⟩ := by decide
  obtain ⟨hdisposed, hclose, hreopen, -⟩ :=
    copy_left_open_iff_forgotten .default .stampAdvanced hgiven
  have hnone : ∀ {left : Bool}, (left = true ↔ workspace.documents.contains ⟨1⟩ = true ∧
      (initial .default .stampAdvanced).Forgets ⟨1⟩ calls) → left = false := by
    intro left hleft
    rw [← Bool.not_eq_true, hleft]
    exact fun hforgotten => hkept hforgotten.2
  exact ⟨hgiven, by decide, hkept, hnone hdisposed, hclosed, hnone (hclose hclosed),
    hnone (hreopen _ "/a" "ef" hsource rfl)⟩

/-- Somebody makes a copy of their own, past the workspace, and closes it through the workspace,
which forgets the copy in use with it.  This copy stays open when everything is disposed of, when
its source is closed, and when the path of its source is opened anew. -/
theorem forgotten_copy_left_open :
    let calls : List Call := [.openDocument "/a" "ab", .start ⟨0⟩ ⟨1, 1, Nat.le_refl 1⟩ "X",
      .onDocuments (.createCopy ⟨0⟩ "c"), .closeDocument ⟨2⟩]
    let completion : Completion := ⟨⟨0⟩, ⟨1⟩, ⟨⟨1⟩, ⟨1⟩⟩, "aXb"⟩
    let workspace := (initial .default .stampAdvanced).after calls
    .started completion ∈ ((initial .default .stampAdvanced).run calls).1 ∧
      workspace.disposeAll.documents.contains completion.copy = true ∧
      (workspace.closeDocument completion.source).1 = true ∧
      (workspace.closeDocument completion.source).2.documents.contains completion.copy = true ∧
      workspace.documents.idForPath? "/a" = some completion.source ∧
      (workspace.openDocument "/a" "cd").2.documents.contains completion.copy = true := by
  decide

end Retrace.Workspace
