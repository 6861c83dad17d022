import Mathlib.Data.List.Nodup
import Mathlib.Data.List.Perm.Subperm
import Retrace.Proofs.Table.Map

/-!
# Tables with the same entries

The order of the entries is one view of a table, and what its keys find is another.  Tables are
compared by the second: one table has as many entries as the other, and each of its entries is found
there (`Table.sameEntries`).  No entry stands in a table twice, so an injection of one list of
entries into another one of the same length is a rearrangement (`sameEntries_iff_perm`), and whether
two lists are rearrangements of each other can be read off what the keys find (`perm_iff_find?`).

A write in the middle of a table leaves the entries before it and behind it in their places
(`entries_insert_of_eq`, `entries_erase_of_eq`).
-/

namespace Retrace

variable {κ α : Type} {key : κ} {old value : α} {front back : List (κ × α)}

/-! ### Writing in the middle of a list -/

theorem putEntry_append_cons [DecidableEq κ] (hfront : key ∉ front.map Prod.fst) :
    putEntry key value (front ++ (key, old) :: back) = front ++ (key, value) :: back := by
  induction front with
  | nil => simp only [List.nil_append, putEntry, if_true]
  | cons entry rest ih =>
      rw [List.map_cons, List.mem_cons, not_or] at hfront
      obtain ⟨hne, hrest⟩ := hfront
      simp only [List.cons_append, putEntry, if_neg (Ne.symm hne), ih hrest]

namespace Table

variable {t u : Table κ α}

/-- The key of an entry stands neither before it nor behind it. -/
theorem key_notMem_of_eq (h : t.entries = front ++ (key, old) :: back) :
    key ∉ front.map Prod.fst ∧ key ∉ back.map Prod.fst := by
  have hdistinct := t.keys_nodup
  rw [h, List.map_append, List.map_cons, List.nodup_append] at hdistinct
  obtain ⟨-, hback, hapart⟩ := hdistinct
  exact ⟨fun hmem => hapart key hmem key List.mem_cons_self rfl, (List.nodup_cons.1 hback).1⟩

theorem entries_nodup (t : Table κ α) : t.entries.Nodup :=
  List.Nodup.of_map Prod.fst t.keys_nodup

/-- Every key of a table has its place among the entries. -/
theorem exists_entries_eq (h : key ∈ t.keys) :
    ∃ front old back, t.entries = front ++ (key, old) :: back := by
  obtain ⟨⟨_, old⟩, hmem, rfl⟩ := List.mem_map.1 h
  obtain ⟨front, back, heq⟩ := List.append_of_mem hmem
  exact ⟨front, old, back, heq⟩

variable [DecidableEq κ]

theorem mem_keys_iff_exists_find? : key ∈ t.keys ↔ ∃ value, t.find? key = some value := by
  rcases hfind : t.find? key with _ | value
  · simp [find?_eq_none_iff.1 hfind]
  · have hmem : key ∈ t.keys := List.mem_map_of_mem (find?_eq_some_iff.1 hfind)
    simp [hmem]

/-- To write a key that is there changes its value, and nothing moves. -/
theorem entries_insert_of_eq (h : t.entries = front ++ (key, old) :: back) (value : α) :
    (t.insert key value).entries = front ++ (key, value) :: back := by
  simp only [insert, h]
  exact putEntry_append_cons (key_notMem_of_eq h).1

/-- To take a key out leaves the entries before it and behind it as they were. -/
theorem entries_erase_of_eq (h : t.entries = front ++ (key, old) :: back) :
    (t.erase key).entries = front ++ back := by
  obtain ⟨hfront, hback⟩ := key_notMem_of_eq h
  have hkept : ∀ {entries : List (κ × α)}, key ∉ entries.map Prod.fst →
      (entries.filter fun entry => decide (entry.1 ≠ key)) = entries := by
    intro entries hnot
    refine List.filter_eq_self.2 fun entry hentry => decide_eq_true ?_
    exact fun heq => hnot (List.mem_map.2 ⟨entry, hentry, heq⟩)
  simp only [erase, filter, h, List.filter_append, List.filter_cons, hkept hfront, hkept hback,
    ne_eq, not_true_eq_false, decide_false, Bool.false_eq_true, if_false]

/-! ### Comparing -/

/-- Two tables list the same entries, in some order, if every key finds the same in both. -/
theorem perm_iff_find? : t.entries.Perm u.entries ↔ ∀ key, t.find? key = u.find? key := by
  rw [List.perm_ext_iff_of_nodup t.entries_nodup u.entries_nodup]
  constructor
  · intro h key
    apply Option.ext
    intro value
    rw [find?_eq_some_iff, find?_eq_some_iff]
    exact h (key, value)
  · rintro h ⟨key, value⟩
    rw [← find?_eq_some_iff, ← find?_eq_some_iff, h key]

/-- Tables are told to be the same exactly if the one lists the entries of the other, in some
order. -/
theorem sameEntries_iff_perm [DecidableEq α] :
    t.sameEntries u = true ↔ t.entries.Perm u.entries := by
  rw [sameEntries, Bool.and_eq_true, decide_eq_true_eq, List.all_eq_true]
  simp only [decide_eq_true_eq, find?_eq_some_iff]
  constructor
  · rintro ⟨hlength, hsub⟩
    have hsubperm : t.entries.Subperm u.entries := List.subperm_of_subset t.entries_nodup hsub
    exact hsubperm.perm_of_length_le (Nat.le_of_eq hlength.symm)
  · intro hperm
    exact ⟨hperm.length_eq, fun entry hentry => hperm.mem_iff.1 hentry⟩

theorem sameEntries_iff_find? [DecidableEq α] :
    t.sameEntries u = true ↔ ∀ key, t.find? key = u.find? key :=
  sameEntries_iff_perm.trans perm_iff_find?

end Table

end Retrace
