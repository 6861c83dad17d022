import Retrace.Document.Store
import Retrace.Proofs.Edit.Turn

/-!
# The theory of documents and of their store

A reported edit is accepted exactly if it turns the text into another one
(`Document.apply_eq_ok_iff`), and then the inverse is accepted and gives the text back.

A store is sound if every document is open under its own number, which is below the next
number to be given out, and if the path index says exactly which documents are open under
which path (`Store.Sound`).  Every operation of the store keeps this.
-/

namespace Retrace

namespace Document

variable {document edited : Document} {edit : Edit} {span : Span} {parts : Text.Cut}

theorem cut_eq_ok_iff :
    document.cut span = .ok parts ↔ Text.cut document.text span = .ok parts := by
  unfold cut
  split <;> simp_all

/-- A document is cut exactly if the parts make up its text and have the sizes of the span. -/
theorem cut_eq_ok_iff_append :
    document.cut span = .ok parts ↔
      document.text = parts.before ++ parts.inside ++ parts.after ∧
        parts.before.utf8ByteSize = span.start ∧
        (parts.before ++ parts.inside).utf8ByteSize = span.stop :=
  cut_eq_ok_iff.trans Text.cut_eq_ok_iff

/-- An edit is accepted exactly if it turns the text into another one. -/
theorem apply_eq_ok_iff :
    document.apply edit = .ok edited ↔
      edit.offset + edit.removed.utf8ByteSize ≤ Offset.limit ∧
        ∃ text, edit.Turns document.text text ∧ edited = document.setText text := by
  constructor
  · intro h
    unfold apply at h
    split at h
    · simp at h
    · next span hspan =>
        obtain ⟨hstart, hstop, hfits⟩ := Span.ofLength_eq_ok_iff.1 hspan
        split at h
        · simp at h
        · next parts hcut =>
            split at h
            · next hinside =>
                obtain ⟨htext, hbefore, -⟩ := cut_eq_ok_iff_append.1 hcut
                simp only [Except.ok.injEq] at h
                refine ⟨hfits, parts.replace edit.inserted, ?_, h.symm⟩
                exact ⟨parts.before, parts.after, hinside ▸ htext, rfl, hbefore.trans hstart⟩
            · simp at h
  · rintro ⟨hfits, text, ⟨front, back, hbefore, hafter, hfront⟩, rfl⟩
    have hcut : document.cut ⟨edit.offset, edit.offset + edit.removed.utf8ByteSize,
        Nat.le_add_right _ _⟩ = .ok ⟨front, edit.removed, back⟩ := by
      refine cut_eq_ok_iff_append.2 ⟨hbefore, hfront, ?_⟩
      rw [String.utf8ByteSize_append, hfront]
    simp only [apply, Edit.removedSpan_eq_ok hfits, hcut, if_true, Text.Cut.replace, hafter]

theorem apply_of_turns {text : String}
    (hfits : edit.offset + edit.removed.utf8ByteSize ≤ Offset.limit)
    (h : edit.Turns document.text text) : document.apply edit = .ok (document.setText text) :=
  apply_eq_ok_iff.2 ⟨hfits, text, h, rfl⟩

/-- A span that cuts the text makes an edit that is accepted. -/
theorem turns_of_cut {text : String} (h : document.cut span = .ok parts) :
    Edit.Turns ⟨span.start, parts.inside, text⟩ document.text (parts.replace text) := by
  obtain ⟨htext, hbefore, -⟩ := cut_eq_ok_iff_append.1 h
  exact ⟨parts.before, parts.after, htext, rfl, hbefore⟩

/-- A document that can be open under a number: it bears the number, it was committed no later
than it was changed, and it has no path if it is a copy. -/
structure FiledUnder (document : Document) (id : DocumentId) : Prop where
  id_eq : document.id = id
  committed_le : document.committed ≤ document.modified
  path_of_copy : document.copyOf ≠ none → document.path = none

theorem filedUnder_fresh {id : DocumentId} {path : Option String} {text : String}
    {copyOf : Option DocumentId} (h : path = none ∨ copyOf = none) :
    (fresh id path text copyOf).FiledUnder id where
  id_eq := rfl
  committed_le := Nat.le_refl _
  path_of_copy hcopy := h.resolve_right hcopy

theorem FiledUnder.setText {id : DocumentId} (h : document.FiledUnder id) (text : String) :
    (document.setText text).FiledUnder id where
  id_eq := h.id_eq
  committed_le := Nat.le_succ_of_le h.committed_le
  path_of_copy := h.path_of_copy

theorem FiledUnder.commit {id : DocumentId} (h : document.FiledUnder id) :
    document.commit.FiledUnder id where
  id_eq := h.id_eq
  committed_le := Nat.le_refl _
  path_of_copy := h.path_of_copy

end Document

namespace Store

variable {store : Store} {id other : DocumentId} {document : Document} {path text : String}

/-! ### What an operation does to the documents and to the paths -/

@[simp] theorem find?_put : (store.put id document).find? other =
    if other = id then some document else store.find? other :=
  Table.find?_insert store.documents id other document

@[simp] theorem idForPath?_put : (store.put id document).idForPath? path = store.idForPath? path :=
  rfl

@[simp] theorem find?_add (path : Option String) (copyOf : Option DocumentId) :
    (store.add path text copyOf).2.find? other =
      if other = ⟨store.nextIndex⟩ then some (.fresh ⟨store.nextIndex⟩ path text copyOf)
      else store.find? other :=
  Table.find?_insert store.documents _ other _

@[simp] theorem idForPath?_add (path' : Option String) (copyOf : Option DocumentId) :
    (store.add path' text copyOf).2.idForPath? path = store.idForPath? path := rfl

@[simp] theorem find?_openFresh : (store.openFresh path text).2.find? other =
    if other = ⟨store.nextIndex⟩ then some (.fresh ⟨store.nextIndex⟩ (some path) text none)
    else store.find? other :=
  Table.find?_insert store.documents _ other _

@[simp] theorem idForPath?_openFresh (path' : String) :
    (store.openFresh path text).2.idForPath? path' =
      if path' = path then some ⟨store.nextIndex⟩ else store.idForPath? path' :=
  Table.find?_insert store.paths path path' _

@[simp] theorem close_fst : (store.close id).1 = store.find? id := by
  unfold close
  split
  · next h => rw [h]
  · next h => split <;> rw [h]

@[simp] theorem find?_close : (store.close id).2.find? other =
    if other = id then none else store.find? other := by
  have herase : ({ store with documents := store.documents.erase id } : Store).find? other =
      if other = id then none else store.find? other :=
    Table.find?_erase store.documents id other
  unfold close
  split
  · next h =>
      split
      · next heq => rw [heq, h]
      · rfl
  · split <;> exact herase

theorem idForPath?_close (h : store.find? id = some document) :
    (store.close id).2.idForPath? path =
      if document.path = some path then none else store.idForPath? path := by
  unfold close
  rw [h]
  simp only
  split
  · next hpath => simp [hpath, idForPath?]
  · next closed hpath =>
      rw [hpath]
      refine (Table.find?_erase store.paths closed path).trans ?_
      simp only [Option.some.injEq, eq_comm, idForPath?]

@[simp] theorem nextIndex_close : (store.close id).2.nextIndex = store.nextIndex := by
  unfold close
  split
  · rfl
  · split <;> rfl

/-! ### Soundness -/

/-- Every document is filed under its own number, numbers to be given out are not in use, and
the path index is exact. -/
structure Sound (store : Store) : Prop where
  filed : ∀ {id document}, store.find? id = some document → document.FiledUnder id
  index_lt : ∀ {id document}, store.find? id = some document → id.index < store.nextIndex
  path_iff : ∀ {path id}, store.idForPath? path = some id ↔
    ∃ document, store.find? id = some document ∧ document.path = some path

theorem sound_empty : (∅ : Store).Sound where
  filed h := by cases h
  index_lt h := by cases h
  path_iff := by
    intro path id
    constructor
    · intro h
      cases h
    · rintro ⟨document, h, -⟩
      cases h

theorem Sound.not_open_next (h : store.Sound) : store.find? ⟨store.nextIndex⟩ = none := by
  rcases hfind : store.find? ⟨store.nextIndex⟩ with _ | document
  · rfl
  · exact absurd (h.index_lt hfind) (Nat.lt_irrefl _)

theorem Sound.ne_next (h : store.Sound) (hopen : store.find? id = some document) :
    id ≠ ⟨store.nextIndex⟩ := by
  rintro rfl
  rw [h.not_open_next] at hopen
  cases hopen

/-- A document that is put in the place of another one with the same path changes no path. -/
theorem path_eq_of_put {old new later : Document} (hold : store.find? other = some old)
    (hopen : store.find? id = some document)
    (hlater : (store.put other new).find? id = some later) (hpath : new.path = old.path) :
    later.path = document.path := by
  rw [find?_put] at hlater
  split at hlater
  · next heq =>
      cases hlater
      rw [heq, hold, Option.some.injEq] at hopen
      rw [hpath, hopen]
  · rw [hopen, Option.some.injEq] at hlater
    rw [hlater]

/-- Changing a document keeps the store sound if its path stays. -/
theorem Sound.put (h : store.Sound) {old : Document} (hold : store.find? id = some old)
    (hfiled : document.FiledUnder id) (hpath : document.path = old.path) :
    (store.put id document).Sound where
  filed := by
    intro other found hfind
    rw [find?_put] at hfind
    split at hfind
    · next heq =>
        cases hfind
        exact heq ▸ hfiled
    · exact h.filed hfind
  index_lt := by
    intro other found hfind
    rw [find?_put] at hfind
    split at hfind
    · next heq =>
        subst heq
        exact h.index_lt hold
    · exact h.index_lt hfind
  path_iff := by
    intro path other
    rw [idForPath?_put, h.path_iff, find?_put]
    split
    · next heq =>
        subst heq
        simp [hold, hpath]
    · rfl

theorem Sound.add_copy (h : store.Sound) (source : DocumentId) :
    (store.add none text (some source)).2.Sound where
  filed := by
    intro other found hfind
    rw [find?_add] at hfind
    split at hfind
    · next heq =>
        cases hfind
        exact heq ▸ Document.filedUnder_fresh (Or.inl rfl)
    · exact h.filed hfind
  index_lt := by
    intro other found hfind
    rw [find?_add] at hfind
    split at hfind
    · next heq =>
        subst heq
        exact Nat.lt_succ_self _
    · exact Nat.lt_succ_of_lt (h.index_lt hfind)
  path_iff := by
    intro path other
    rw [idForPath?_add, h.path_iff, find?_add]
    split
    · next heq =>
        subst heq
        simp [h.not_open_next, Document.fresh]
    · rfl

theorem Sound.openFresh (h : store.Sound) (hfree : store.idForPath? path = none) :
    (store.openFresh path text).2.Sound where
  filed := by
    intro other found hfind
    rw [find?_openFresh] at hfind
    split at hfind
    · next heq =>
        cases hfind
        exact heq ▸ Document.filedUnder_fresh (Or.inr rfl)
    · exact h.filed hfind
  index_lt := by
    intro other found hfind
    rw [find?_openFresh] at hfind
    split at hfind
    · next heq =>
        subst heq
        exact Nat.lt_succ_self _
    · exact Nat.lt_succ_of_lt (h.index_lt hfind)
  path_iff := by
    intro path' other
    rw [idForPath?_openFresh, find?_openFresh]
    by_cases hnext : other = ⟨store.nextIndex⟩
    · have hclosed : store.idForPath? path' ≠ some other := by
        intro hused
        obtain ⟨found, hfind, -⟩ := h.path_iff.1 hused
        rw [hnext, h.not_open_next] at hfind
        cases hfind
      by_cases hpath : path' = path <;>
        simp_all [Document.fresh, eq_comm]
    · by_cases hpath : path' = path
      · -- no other document has the path, because it was free
        have hunused : ¬ ∃ found, store.find? other = some found ∧ found.path = some path' := by
          rw [← h.path_iff, hpath, hfree]
          simp
        simp only [if_pos hpath, if_neg hnext, hunused, iff_false, Option.some.injEq]
        exact fun heq => hnext heq.symm
      · rw [if_neg hpath, if_neg hnext, h.path_iff]

theorem Sound.close (h : store.Sound) (id : DocumentId) : (store.close id).2.Sound where
  filed := by
    intro other found hfind
    rw [find?_close] at hfind
    split at hfind
    · cases hfind
    · exact h.filed hfind
  index_lt := by
    intro other found hfind
    rw [find?_close] at hfind
    rw [nextIndex_close]
    split at hfind
    · cases hfind
    · exact h.index_lt hfind
  path_iff := by
    intro path other
    rw [find?_close]
    rcases hclosed : store.find? id with _ | closed
    · have hsame : (store.close id).2 = store := by
        unfold Store.close
        rw [hclosed]
      rw [hsame, h.path_iff]
      split
      · next heq => simp [heq, hclosed]
      · rfl
    · rw [idForPath?_close hclosed]
      by_cases hpath : closed.path = some path
      · have hid : store.idForPath? path = some id := h.path_iff.2 ⟨closed, hclosed, hpath⟩
        rw [if_pos hpath]
        split
        · simp
        · next hne =>
            rw [← h.path_iff, hid]
            simp only [Option.some.injEq, reduceCtorEq, false_iff]
            exact fun heq => hne heq.symm
      · rw [if_neg hpath, h.path_iff]
        split
        · next heq => simp [heq, hclosed, hpath]
        · rfl

/-- A path is opened in one of two ways: the document there gets the text, or there is none and
a document is added. -/
theorem Sound.openPath_cases (h : store.Sound) (path text : String) :
    (∃ id document, store.find? id = some document ∧ document.path = some path ∧
        store.idForPath? path = some id ∧
        store.openPath path text = (id, store.put id (document.setText text))) ∨
      (store.idForPath? path = none ∧
        store.openPath path text = store.openFresh path text) := by
  rcases hid : store.idForPath? path with _ | id
  · exact Or.inr ⟨rfl, by simp only [Store.openPath, hid]⟩
  · obtain ⟨document, hfind, hpath⟩ := h.path_iff.1 hid
    exact Or.inl ⟨id, document, hfind, hpath, rfl, by simp only [Store.openPath, hid, hfind]⟩

/-! ### Copies -/

theorem Sound.mem_copiesOf_iff (h : store.Sound) {source : DocumentId} :
    id ∈ store.copiesOf source ↔
      ∃ document, store.find? id = some document ∧ document.copyOf = some source := by
  unfold copiesOf Table.values
  simp only [List.mem_map, List.mem_filter, decide_eq_true_eq]
  constructor
  · rintro ⟨document, ⟨⟨entry, hentry, rfl⟩, hcopy⟩, rfl⟩
    have hfind : store.find? entry.1 = some entry.2 := Table.find?_eq_some_iff.2 hentry
    exact ⟨entry.2, (h.filed hfind).id_eq ▸ hfind, hcopy⟩
  · rintro ⟨document, hfind, hcopy⟩
    exact ⟨document, ⟨⟨(id, document), Table.find?_eq_some_iff.1 hfind, rfl⟩, hcopy⟩,
      (h.filed hfind).id_eq⟩

/-- Every document bears the number under which it is kept. -/
theorem Sound.map_id_values (h : store.Sound) :
    store.documents.values.map Document.id = store.documents.keys := by
  unfold Table.values Table.keys
  rw [List.map_map]
  apply List.map_congr_left
  intro entry hentry
  exact (h.filed (Table.find?_eq_some_iff.2 hentry)).id_eq

/-- The copies of a document are some of the documents, in their order. -/
theorem Sound.copiesOf_sublist (h : store.Sound) (source : DocumentId) :
    (store.copiesOf source).Sublist store.documents.keys := by
  rw [← h.map_id_values]
  exact List.filter_sublist.map Document.id

theorem Sound.nodup_copiesOf (h : store.Sound) (source : DocumentId) :
    (store.copiesOf source).Nodup :=
  store.documents.keys_nodup.sublist (h.copiesOf_sublist source)

end Store

end Retrace
