import Retrace.Proofs.Document.Age

/-!
# Numbers and paths of documents

A store gives numbers out and never takes one back.  `Store.givenOut` reads off the replies of a run
which numbers it gave out, and these are all numbers from the next one of the store on, in ascending
order (`Sound.mem_givenOut_iff`, `Sound.ascending_givenOut`).  Documents are added behind all others
and keep their places, so they stand in the order of their numbers too (`Yields.ascending_keys`).

With soundness this says what a path stands for after any run (`run_files_documents`): the one open
document that was opened under it, and if there is none, opening the path gives out a number that no
call of the run has given out.
-/

namespace Retrace

/-- Numbers in ascending order. -/
def Ascending (ids : List DocumentId) : Prop := ids.Pairwise fun a b => a.index < b.index

namespace Store

variable {store later : Store} {id : DocumentId} {document changed : Document} {path text : String}
  {call : Call} {calls : List Call}

/-! ### Runs -/

theorem run_cons (store : Store) (call : Call) (rest : List Call) :
    store.run (call :: rest) = (store.step call).2.run rest := rfl

/-- Every run makes a sound store older. -/
theorem Sound.ages_run (h : store.Sound) (calls : List Call) : store.Ages (store.run calls) := by
  induction calls generalizing store with
  | nil => exact h.ages_refl
  | cons call rest ih =>
      have hstep := h.ages_step call
      exact hstep.trans (ih hstep.sound)

/-! ### Numbers that are given out -/

/-- The number that a call gives out: it opens a document under a number under which none was
open. -/
def newNumber? (store : Store) (call : Call) : Option DocumentId :=
  match (store.step call).1 with
  | .document id => if store.contains id then none else some id
  | _ => none

/-- The numbers that the calls of a run give out, in turn. -/
def givenOut (store : Store) : List Call → List DocumentId
  | [] => []
  | call :: rest => (store.newNumber? call).toList ++ (store.step call).2.givenOut rest

/-- A call gives out the next number, or none. -/
theorem Sound.newNumber?_cases (h : store.Sound) (call : Call) :
    (store.newNumber? call = none ∧ (store.step call).2.nextIndex = store.nextIndex) ∨
      (store.newNumber? call = some ⟨store.nextIndex⟩ ∧
        (store.step call).2.nextIndex = store.nextIndex + 1) := by
  have hnext : store.contains ⟨store.nextIndex⟩ = false := by
    simp [contains, h.not_open_next]
  cases call with
  | openPath path text =>
      simp only [newNumber?, step]
      rcases h.openPath_cases path text with ⟨id, document, hopen, -, -, heq⟩ | ⟨-, heq⟩
      · left
        rw [heq]
        constructor
        · simp [contains, hopen]
        · rfl
      · right
        rw [heq]
        constructor
        · exact if_neg (ne_true_of_eq_false hnext)
        · rfl
  | createCopy source text =>
      simp only [newNumber?, step, createCopy]
      by_cases hcontains : store.contains source = true
      · right
        simp [hcontains, add, hnext]
      · left
        simp [hcontains]
  | replace id span text =>
      left
      simp only [newNumber?, step]
      rcases store.get id with refusal | document
      · exact ⟨rfl, rfl⟩
      · simp only
        rcases document.replace span text with refusal | ⟨edit, changed⟩
        · exact ⟨rfl, rfl⟩
        · exact ⟨rfl, rfl⟩
  | apply id edit =>
      left
      simp only [newNumber?, step]
      rcases store.get id with refusal | document
      · exact ⟨rfl, rfl⟩
      · simp only
        rcases document.apply edit with failure | changed
        · exact ⟨rfl, rfl⟩
        · exact ⟨rfl, rfl⟩
  | setText id text =>
      left
      simp only [newNumber?, step]
      rcases store.get id with refusal | document
      · exact ⟨rfl, rfl⟩
      · exact ⟨rfl, rfl⟩
  | commit id =>
      left
      simp only [newNumber?, step]
      rcases store.get id with refusal | document
      · exact ⟨rfl, rfl⟩
      · exact ⟨rfl, rfl⟩
  | close id => exact Or.inl ⟨rfl, nextIndex_close⟩

/-- A run gives out every number from the next one of the store up to the next one afterwards. -/
theorem Sound.mem_givenOut_iff (h : store.Sound) :
    id ∈ store.givenOut calls ↔
      store.nextIndex ≤ id.index ∧ id.index < (store.run calls).nextIndex := by
  induction calls generalizing store with
  | nil =>
      simp only [givenOut, List.not_mem_nil, false_iff, not_and, Nat.not_lt]
      exact fun hle => hle
  | cons call rest ih =>
      have hstep := h.ages_step call
      have hrun := (hstep.sound.ages_run rest).nextIndex_le
      rw [givenOut, List.mem_append, ih hstep.sound, run_cons]
      rcases h.newNumber?_cases call with ⟨hnew, hindex⟩ | ⟨hnew, hindex⟩
      · simp [hnew, hindex]
      · have hhead : id = ⟨store.nextIndex⟩ ↔ id.index = store.nextIndex := by
          cases id
          simp
        simp only [hnew, Option.toList_some, List.mem_singleton, hhead]
        omega

theorem Sound.ascending_givenOut (h : store.Sound) (calls : List Call) :
    Ascending (store.givenOut calls) := by
  induction calls generalizing store with
  | nil => exact List.Pairwise.nil
  | cons call rest ih =>
      have hstep := h.ages_step call
      unfold givenOut
      rcases h.newNumber?_cases call with ⟨hnew, -⟩ | ⟨hnew, hindex⟩
      · rw [hnew]
        exact ih hstep.sound
      · rw [hnew]
        apply List.Pairwise.cons
        · -- the numbers behind come from a store whose next number is one more
          intro other hother
          have hle := (hstep.sound.mem_givenOut_iff.1 hother).1
          exact Nat.lt_of_lt_of_le (Nat.lt_of_lt_of_eq (Nat.lt_succ_self _) hindex.symm) hle
        · exact ih hstep.sound

/-! ### The order of the documents -/

theorem keys_put (hopen : store.find? id = some document) (changed : Document) :
    (store.put id changed).documents.keys = store.documents.keys := by
  have hmem : id ∈ store.documents.keys := by
    apply Decidable.of_not_not
    intro hnot
    rw [find?, Table.find?_eq_none_iff.2 hnot] at hopen
    cases hopen
  exact (Table.keys_insert store.documents id changed).trans (if_pos hmem)

theorem Sound.keys_add (h : store.Sound) (path : Option String) (text : String)
    (copyOf : Option DocumentId) :
    (store.add path text copyOf).2.documents.keys =
      store.documents.keys ++ [⟨store.nextIndex⟩] :=
  (Table.keys_insert store.documents _ _).trans
    (if_neg (Table.find?_eq_none_iff.1 h.not_open_next))

theorem keys_close_sublist (store : Store) (id : DocumentId) :
    (store.close id).2.documents.keys.Sublist store.documents.keys := by
  have herase : (store.documents.erase id).keys.Sublist store.documents.keys := by
    rw [Table.keys_erase]
    exact List.filter_sublist
  unfold close
  split
  · exact List.Sublist.refl _
  · split
    · exact herase
    · exact herase

/-- A new number is above the numbers of all documents. -/
theorem Sound.ascending_append_next (h : store.Sound) (hkeys : Ascending store.documents.keys) :
    Ascending (store.documents.keys ++ [⟨store.nextIndex⟩]) := by
  apply List.pairwise_append.2
  refine ⟨hkeys, List.pairwise_singleton _ _, ?_⟩
  intro id hid other hother
  rw [List.mem_singleton.1 hother]
  obtain ⟨entry, hentry, rfl⟩ := List.mem_map.1 hid
  exact h.index_lt (Table.find?_eq_some_iff.2 hentry)

/-- Documents keep their places, and a new one comes last. -/
theorem Yields.ascending_keys (hyields : store.Yields call later) (h : store.Sound)
    (hkeys : Ascending store.documents.keys) : Ascending later.documents.keys := by
  cases hyields with
  | same => exact hkeys
  | rewritten hopen text =>
      rw [keys_put hopen]
      exact hkeys
  | committed hopen =>
      rw [keys_put hopen]
      exact hkeys
  | copied source text =>
      rw [h.keys_add]
      exact h.ascending_append_next hkeys
  | opened hfree text => exact h.keys_add _ text none ▸ h.ascending_append_next hkeys
  | closed hcall => exact hkeys.sublist (keys_close_sublist store _)

theorem Sound.ascending_keys_run (h : store.Sound) (hkeys : Ascending store.documents.keys)
    (calls : List Call) : Ascending (store.run calls).documents.keys := by
  induction calls generalizing store with
  | nil => exact hkeys
  | cons call rest ih =>
      exact ih (h.ages_step call).sound ((h.step_yields call).ascending_keys h hkeys)

/-! ### Paths -/

/-- A path belongs to one document. -/
theorem Sound.eq_of_path (h : store.Sound) {other : DocumentId} {found : Document}
    (hopen : store.find? id = some document) (hfound : store.find? other = some found)
    (hpath : document.path = some path) (hsame : found.path = some path) : id = other := by
  have hid : store.idForPath? path = some id := h.path_iff.2 ⟨document, hopen, hpath⟩
  have hother : store.idForPath? path = some other := h.path_iff.2 ⟨found, hfound, hsame⟩
  rw [hid, Option.some.injEq] at hother
  exact hother

theorem Sound.openPath_of_open (h : store.Sound) (hopen : store.find? id = some document)
    (hpath : document.path = some path) (text : String) :
    store.openPath path text = (id, store.put id (document.setText text)) := by
  have hid : store.idForPath? path = some id := h.path_iff.2 ⟨document, hopen, hpath⟩
  simp only [openPath, hid, hopen]

theorem Sound.openPath_of_free (h : store.Sound)
    (hfree : ∀ id document, store.find? id = some document → document.path ≠ some path)
    (text : String) : store.openPath path text = store.openFresh path text := by
  rcases h.openPath_cases path text with ⟨id, document, hopen, hpath, -, -⟩ | ⟨-, heq⟩
  · exact absurd hpath (hfree id document hopen)
  · exact heq

/-- **Numbers and paths of documents.**  After any run of calls on an empty store the following
holds.  Every open document is kept under its own number, which some call has given out, and has no
path if it is a copy.  The path index lists exactly the open documents with a path, and no two open
documents have one path.  Numbers were given out in ascending order, and the documents and the
copies of a document stand in this order.  A number that was given out and is not open stays closed
through any further calls.  Opening a path rewrites the open document with this path, under its
number, and if there is none, it adds a document under a number that was not given out before. -/
theorem run_files_documents (calls : List Call) :
    let store := (∅ : Store).run calls
    let given := (∅ : Store).givenOut calls
    (∀ id document, store.find? id = some document →
      document.id = id ∧ id ∈ given ∧ (document.copyOf ≠ none → document.path = none)) ∧
    (∀ path id, store.idForPath? path = some id ↔
      ∃ document, store.find? id = some document ∧ document.path = some path) ∧
    (∀ path id other document found, store.find? id = some document →
      store.find? other = some found → document.path = some path → found.path = some path →
        id = other) ∧
    Ascending given ∧ Ascending store.documents.keys ∧
    (∀ source, Ascending (store.copiesOf source) ∧
      ∀ id, id ∈ store.copiesOf source ↔
        ∃ document, store.find? id = some document ∧ document.copyOf = some source) ∧
    (∀ id ∈ given, store.find? id = none → ∀ more, (store.run more).find? id = none) ∧
    ∀ path text,
      (∀ id document, store.find? id = some document → document.path = some path →
        store.openPath path text = (id, store.put id (document.setText text))) ∧
      ((∀ id document, store.find? id = some document → document.path ≠ some path) →
        (store.openPath path text).1 ∉ given ∧
          ∀ id, (store.openPath path text).2.find? id =
            if id = (store.openPath path text).1 then some (.fresh id (some path) text none)
            else store.find? id) := by
  intro store given
  have hages : (∅ : Store).Ages store := sound_empty.ages_run calls
  have hsound : store.Sound := hages.sound
  have hgiven : ∀ id, id ∈ given ↔ id.index < store.nextIndex := by
    intro id
    rw [sound_empty.mem_givenOut_iff]
    exact and_iff_right (Nat.zero_le _)
  have hkeys : Ascending store.documents.keys :=
    sound_empty.ascending_keys_run List.Pairwise.nil calls
  refine ⟨?_, fun path id => hsound.path_iff, ?_, sound_empty.ascending_givenOut calls, hkeys, ?_,
    ?_, ?_⟩
  · intro id document hopen
    have hfiled := hsound.filed hopen
    exact ⟨hfiled.id_eq, (hgiven id).2 (hsound.index_lt hopen), hfiled.path_of_copy⟩
  · intro path id other document found hopen hfound hpath hsame
    exact hsound.eq_of_path hopen hfound hpath hsame
  · intro source
    constructor
    · exact hkeys.sublist (hsound.copiesOf_sublist source)
    · exact fun id => hsound.mem_copiesOf_iff
  · intro id hid hclosed more
    exact (hsound.ages_run more).find?_eq_none ((hgiven id).1 hid) hclosed
  · intro path text
    constructor
    · intro id document hopen hpath
      exact hsound.openPath_of_open hopen hpath text
    · intro hfree
      rw [hsound.openPath_of_free hfree]
      constructor
      · rw [hgiven]
        exact Nat.lt_irrefl _
      · intro id
        have hnew : (store.openFresh path text).1 = ⟨store.nextIndex⟩ := rfl
        rw [find?_openFresh, hnew]
        split
        · next heq => rw [heq]
        · rfl

/-- Two documents are opened and two copies of the first are made.  The second is closed, and the
first is opened again under its path.  The number of the second stays closed when its path is opened
once more. -/
theorem run_files_reopened_documents :
    let calls : List Call := [.openPath "/a" "x", .openPath "/b" "y", .createCopy ⟨0⟩ "é",
      .createCopy ⟨0⟩ "c", .close ⟨1⟩, .openPath "/a" "z"]
    let store := (∅ : Store).run calls
    let given := (∅ : Store).givenOut calls
    let first : Document := ⟨⟨0⟩, some "/a", "z", ⟨1⟩, ⟨0⟩, none⟩
    given = [⟨0⟩, ⟨1⟩, ⟨2⟩, ⟨3⟩] ∧ Ascending given ∧ store.find? ⟨0⟩ = some first ∧
      store.idForPath? "/a" = some ⟨0⟩ ∧ store.copiesOf ⟨0⟩ = [⟨2⟩, ⟨3⟩] ∧
      Ascending (store.copiesOf ⟨0⟩) ∧ store.find? ⟨1⟩ = none ∧
      (store.run [.openPath "/b" "w"]).find? ⟨1⟩ = none ∧
      store.openPath "/a" "w" = (⟨0⟩, store.put ⟨0⟩ (first.setText "w")) ∧
      (store.openPath "/b" "w").1 ∉ given := by
  intro calls store given first
  obtain ⟨-, hpaths, -, hgiven, -, hcopies, hclosed, hopened⟩ := run_files_documents calls
  have hfirst : store.find? ⟨0⟩ = some first := by decide
  have hsecond : store.find? ⟨1⟩ = none := by decide
  have hfree : ∀ id document, store.find? id = some document → document.path ≠ some "/b" := by
    intro id document hopen hpath
    have hused : store.idForPath? "/b" = some id := (hpaths "/b" id).2 ⟨document, hopen, hpath⟩
    have hnone : store.idForPath? "/b" = none := by decide
    rw [hnone] at hused
    cases hused
  exact ⟨by decide, hgiven, hfirst, (hpaths "/a" ⟨0⟩).2 ⟨first, hfirst, rfl⟩, by decide,
    (hcopies ⟨0⟩).1, hsecond, hclosed ⟨1⟩ (by decide) hsecond _,
    (hopened "/a" "w").1 ⟨0⟩ first hfirst rfl, ((hopened "/b" "w").2 hfree).1⟩

end Store

end Retrace
