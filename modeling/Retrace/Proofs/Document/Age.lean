import Retrace.Proofs.Document.Store

/-!
# How a store gets older

Whatever calls are made on a store, it stays sound, no number is given out again, the stamp of a
document never goes back, and a copy stays a copy of its source (`Store.Ages`).  So a number that
was closed stays closed, and whoever remembers a stamp of a document can compare it with the stamps
of the document later on.  Calls that close nothing also leave every document open (`Store.Grows`).
-/

namespace Retrace.Store

variable {store middle later : Store} {id : DocumentId} {document changed : Document}
  {text : String}

/-- A sound store that another one has become: numbers are not taken back, and an open document
has a new number, or it was open before under a stamp that is not above its own, as the same kind of
document. -/
structure Ages (store later : Store) : Prop where
  sound : later.Sound
  nextIndex_le : store.nextIndex ≤ later.nextIndex
  document : ∀ {id found}, later.find? id = some found →
    (∃ old, store.find? id = some old ∧ old.modified ≤ found.modified ∧
      old.copyOf = found.copyOf) ∨ store.nextIndex ≤ id.index

theorem Ages.trans (h : store.Ages middle) (h' : middle.Ages later) : store.Ages later where
  sound := h'.sound
  nextIndex_le := Nat.le_trans h.nextIndex_le h'.nextIndex_le
  document := by
    intro id found hfound
    rcases h'.document hfound with ⟨between, hbetween, hle, hkind⟩ | hnew
    · rcases h.document hbetween with ⟨old, hold, hle', hkind'⟩ | hnew
      · exact Or.inl ⟨old, hold, Nat.le_trans hle' hle, hkind'.trans hkind⟩
      · exact Or.inr hnew
    · exact Or.inr (Nat.le_trans h.nextIndex_le hnew)

/-- A document whose number was given out and that is open later was open before. -/
theorem Ages.exists_old (h : store.Ages later) (hgiven : id.index < store.nextIndex)
    (hopen : later.find? id = some document) :
    ∃ old, store.find? id = some old ∧ old.modified ≤ document.modified := by
  rcases h.document hopen with ⟨old, hold, hle, -⟩ | hnew
  · exact ⟨old, hold, hle⟩
  · exact absurd hgiven (Nat.not_lt_of_le hnew)

theorem Ages.contains_old (h : store.Ages later) (hgiven : id.index < store.nextIndex)
    (hopen : later.contains id = true) : store.contains id = true := by
  obtain ⟨found, hfound⟩ := Option.isSome_iff_exists.1 hopen
  obtain ⟨old, hold, -⟩ := h.exists_old hgiven hfound
  exact Option.isSome_iff_exists.2 ⟨old, hold⟩

/-- A document is a copy or no copy from the beginning. -/
theorem Ages.copyOf_eq (h : store.Ages later) (hgiven : id.index < store.nextIndex)
    (hold : store.find? id = some document) (hopen : later.find? id = some changed) :
    changed.copyOf = document.copyOf := by
  rcases h.document hopen with ⟨old, hfound, -, hkind⟩ | hnew
  · rw [hold, Option.some.injEq] at hfound
    exact hfound ▸ hkind.symm
  · exact absurd hgiven (Nat.not_lt_of_le hnew)

/-- A number that was given out and is not open stays closed. -/
theorem Ages.find?_eq_none (h : store.Ages later) (hgiven : id.index < store.nextIndex)
    (hclosed : store.find? id = none) : later.find? id = none := by
  rcases hfound : later.find? id with _ | found
  · rfl
  · obtain ⟨old, hold, -⟩ := h.exists_old hgiven hfound
    rw [hclosed] at hold
    cases hold

namespace Sound

theorem ages_refl (h : store.Sound) : store.Ages store where
  sound := h
  nextIndex_le := Nat.le_refl _
  document hfound := Or.inl ⟨_, hfound, Nat.le_refl _, rfl⟩

/-- A document is replaced by a later state of itself. -/
theorem ages_put (h : store.Sound) (hopen : store.find? id = some document)
    (hfiled : changed.FiledUnder id) (hpath : changed.path = document.path)
    (hle : document.modified ≤ changed.modified) (hkind : document.copyOf = changed.copyOf) :
    store.Ages (store.put id changed) where
  sound := h.put hopen hfiled hpath
  nextIndex_le := Nat.le_refl _
  document := by
    intro other found hfound
    rw [find?_put] at hfound
    split at hfound
    · next heq =>
        cases hfound
        exact Or.inl ⟨document, heq ▸ hopen, hle, hkind⟩
    · exact Or.inl ⟨found, hfound, Nat.le_refl _, rfl⟩

theorem ages_setText (h : store.Sound) (hopen : store.find? id = some document) (text : String) :
    store.Ages (store.put id (document.setText text)) :=
  h.ages_put hopen ((h.filed hopen).setText text) rfl (Nat.le_succ _) rfl

theorem ages_commit (h : store.Sound) (hopen : store.find? id = some document) :
    store.Ages (store.put id document.commit) :=
  h.ages_put hopen (h.filed hopen).commit rfl (Nat.le_refl _) rfl

theorem ages_add_copy (h : store.Sound) (source : DocumentId) (text : String) :
    store.Ages (store.add none text (some source)).2 where
  sound := h.add_copy source
  nextIndex_le := Nat.le_succ _
  document := by
    intro other found hfound
    rw [find?_add] at hfound
    split at hfound
    · next heq => exact Or.inr (heq ▸ Nat.le_refl _)
    · exact Or.inl ⟨found, hfound, Nat.le_refl _, rfl⟩

theorem ages_openFresh (h : store.Sound) {path : String} (hfree : store.idForPath? path = none)
    (text : String) : store.Ages (store.openFresh path text).2 where
  sound := h.openFresh hfree
  nextIndex_le := Nat.le_succ _
  document := by
    intro other found hfound
    rw [find?_openFresh] at hfound
    split at hfound
    · next hnext => exact Or.inr (hnext ▸ Nat.le_refl _)
    · exact Or.inl ⟨found, hfound, Nat.le_refl _, rfl⟩

theorem ages_openPath (h : store.Sound) (path text : String) :
    store.Ages (store.openPath path text).2 := by
  rcases h.openPath_cases path text with ⟨id, document, hopen, -, -, heq⟩ | ⟨hfree, heq⟩
  · rw [heq]
    exact h.ages_setText hopen text
  · rw [heq]
    exact h.ages_openFresh hfree text

theorem ages_close (h : store.Sound) (id : DocumentId) : store.Ages (store.close id).2 where
  sound := h.close id
  nextIndex_le := Nat.le_of_eq nextIndex_close.symm
  document := by
    intro other found hfound
    rw [find?_close] at hfound
    split at hfound
    · cases hfound
    · exact Or.inl ⟨found, hfound, Nat.le_refl _, rfl⟩

end Sound

theorem get_eq_ok_iff : store.get id = .ok document ↔ store.find? id = some document := by
  unfold get
  rcases store.find? id with _ | found <;> simp

/-- What a call can make of a store: nothing changes, a document takes a new text or is committed, a
copy or a document under a free path is added, or a document is closed. -/
inductive Yields (store : Store) (call : Call) : Store → Prop
  | same : store.Yields call store
  | rewritten {id : DocumentId} {document : Document} (hopen : store.find? id = some document)
      (text : String) : store.Yields call (store.put id (document.setText text))
  | committed {id : DocumentId} {document : Document} (hopen : store.find? id = some document) :
      store.Yields call (store.put id document.commit)
  | copied (source : DocumentId) (text : String) :
      store.Yields call (store.add none text (some source)).2
  | opened {path : String} (hfree : store.idForPath? path = none) (text : String) :
      store.Yields call (store.openFresh path text).2
  | closed {id : DocumentId} (hcall : call = .close id) : store.Yields call (store.close id).2

theorem Sound.step_yields (h : store.Sound) (call : Call) :
    store.Yields call (store.step call).2 := by
  -- a call that asks for a document does nothing if there is none
  have hget : ∀ id, (∃ refusal, store.get id = .error refusal) ∨
      ∃ document, store.get id = .ok document ∧ store.find? id = some document := by
    intro id
    rcases hfound : store.get id with refusal | document
    · exact Or.inl ⟨refusal, rfl⟩
    · exact Or.inr ⟨document, rfl, get_eq_ok_iff.1 hfound⟩
  cases call with
  | openPath path text =>
      simp only [step]
      rcases h.openPath_cases path text with ⟨id, document, hopen, -, -, heq⟩ | ⟨hfree, heq⟩
      · rw [heq]
        exact .rewritten hopen text
      · rw [heq]
        exact .opened hfree text
  | createCopy source text =>
      simp only [step, createCopy]
      by_cases hcontains : store.contains source = true
      · rw [if_pos hcontains]
        exact .copied source text
      · rw [if_neg hcontains]
        exact .same
  | replace id span text =>
      simp only [step, Document.replace]
      rcases hget id with ⟨refusal, hfound⟩ | ⟨document, hfound, hopen⟩
      · rw [hfound]
        exact .same
      · rw [hfound]
        simp only
        rcases document.cut span with refusal | parts
        · exact .same
        · exact .rewritten hopen (parts.replace text)
  | apply id edit =>
      simp only [step]
      rcases hget id with ⟨refusal, hfound⟩ | ⟨document, hfound, hopen⟩
      · rw [hfound]
        exact .same
      · rw [hfound]
        simp only
        rcases happly : document.apply edit with failure | edited
        · exact .same
        · obtain ⟨-, text, -, rfl⟩ := Document.apply_eq_ok_iff.1 happly
          exact .rewritten hopen text
  | setText id text =>
      simp only [step]
      rcases hget id with ⟨refusal, hfound⟩ | ⟨document, hfound, hopen⟩
      · rw [hfound]
        exact .same
      · rw [hfound]
        exact .rewritten hopen text
  | commit id =>
      simp only [step]
      rcases hget id with ⟨refusal, hfound⟩ | ⟨document, hfound, hopen⟩
      · rw [hfound]
        exact .same
      · rw [hfound]
        exact .committed hopen
  | close id => exact .closed rfl

theorem Yields.ages {call : Call} (hyields : store.Yields call later) (h : store.Sound) :
    store.Ages later := by
  cases hyields with
  | same => exact h.ages_refl
  | rewritten hopen text => exact h.ages_setText hopen text
  | committed hopen => exact h.ages_commit hopen
  | copied source text => exact h.ages_add_copy source text
  | opened hfree text => exact h.ages_openFresh hfree text
  | closed hcall => exact h.ages_close _

/-- Every call makes a sound store older. -/
theorem Sound.ages_step (h : store.Sound) (call : Call) : store.Ages (store.step call).2 :=
  (h.step_yields call).ages h

/-! ### Stores in which nothing is closed -/

/-- An older store in which every document is still open, and is still a copy or no copy. -/
structure Grows (store later : Store) : Prop where
  ages : store.Ages later
  kept : ∀ {id document}, store.find? id = some document →
    ∃ found, later.find? id = some found ∧ found.copyOf = document.copyOf

/-- A document whose number was given out and that is open later was open before, and was the same
kind of document. -/
theorem Grows.exists_old (h : store.Grows later) (hgiven : id.index < store.nextIndex)
    (hopen : later.find? id = some document) :
    ∃ old, store.find? id = some old ∧ old.copyOf = document.copyOf := by
  obtain ⟨old, hold, -⟩ := h.ages.exists_old hgiven hopen
  obtain ⟨found, hfound, hkind⟩ := h.kept hold
  rw [hopen, Option.some.injEq] at hfound
  exact ⟨old, hold, hfound ▸ hkind.symm⟩

/-- Whether a document is open whose number was given out is the same afterwards. -/
theorem Grows.contains_eq (h : store.Grows later) (hgiven : id.index < store.nextIndex) :
    later.contains id = store.contains id := by
  unfold contains
  rcases hopen : store.find? id with _ | document
  · rw [h.ages.find?_eq_none hgiven hopen]
  · obtain ⟨found, hfound, -⟩ := h.kept hopen
    rw [hfound]
    rfl

/-- A document changes and stays a copy or no copy. -/
theorem Ages.grows_put (h : store.Ages (store.put id changed))
    (hopen : store.find? id = some document) (hkind : changed.copyOf = document.copyOf) :
    store.Grows (store.put id changed) where
  ages := h
  kept := by
    intro other found hfound
    by_cases hsame : other = id
    · subst hsame
      rw [hopen, Option.some.injEq] at hfound
      exact ⟨changed, find?_put.trans (if_pos rfl), hfound ▸ hkind⟩
    · refine ⟨found, ?_, rfl⟩
      rw [find?_put, if_neg hsame, hfound]

namespace Sound

theorem grows_refl (h : store.Sound) : store.Grows store where
  ages := h.ages_refl
  kept hopen := ⟨_, hopen, rfl⟩

theorem grows_setText (h : store.Sound) (hopen : store.find? id = some document) (text : String) :
    store.Grows (store.put id (document.setText text)) :=
  (h.ages_setText hopen text).grows_put hopen rfl

theorem grows_commit (h : store.Sound) (hopen : store.find? id = some document) :
    store.Grows (store.put id document.commit) :=
  (h.ages_commit hopen).grows_put hopen rfl

theorem grows_add_copy (h : store.Sound) (source : DocumentId) (text : String) :
    store.Grows (store.add none text (some source)).2 where
  ages := h.ages_add_copy source text
  kept := by
    intro other found hfound
    refine ⟨found, ?_, rfl⟩
    rw [find?_add, if_neg (h.ne_next hfound), hfound]

theorem grows_openFresh (h : store.Sound) {path : String} (hfree : store.idForPath? path = none)
    (text : String) : store.Grows (store.openFresh path text).2 where
  ages := h.ages_openFresh hfree text
  kept := by
    intro other found hfound
    refine ⟨found, ?_, rfl⟩
    rw [find?_openFresh, if_neg (h.ne_next hfound), hfound]

theorem grows_openPath (h : store.Sound) (path text : String) :
    store.Grows (store.openPath path text).2 := by
  rcases h.openPath_cases path text with ⟨id, document, hopen, -, -, heq⟩ | ⟨hfree, heq⟩
  · rw [heq]
    exact h.grows_setText hopen text
  · rw [heq]
    exact h.grows_openFresh hfree text

end Sound

/-- A call that closes nothing lets a sound store grow. -/
theorem Yields.grows {call : Call} (hyields : store.Yields call later) (h : store.Sound)
    (hstays : ∀ id, call ≠ .close id) : store.Grows later := by
  cases hyields with
  | same => exact h.grows_refl
  | rewritten hopen text => exact h.grows_setText hopen text
  | committed hopen => exact h.grows_commit hopen
  | copied source text => exact h.grows_add_copy source text
  | opened hfree text => exact h.grows_openFresh hfree text
  | closed hcall => exact absurd hcall (hstays _)

end Retrace.Store
