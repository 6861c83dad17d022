import Retrace.Table.Basic

/-!
# Changing all values of a table

A function on values can be applied to a whole table before or after the table is written to
(`map_insert`, `map_erase`, `map_filter`, `sweep_map`).  So whatever is computed from tables by
these operations can be followed in a simpler table that forgets a part of every value.

A sweep may end before the last value.  Then the values up to its end are changed and those behind
it are not (`sweepEntries_cases`).
-/

namespace Retrace

variable {κ α β γ ε : Type}

/-! ### Lists of entries -/

theorem map_putEntry [DecidableEq κ] (f : κ → α → β) (key : κ) (value : α)
    (entries : List (κ × α)) :
    (putEntry key value entries).map (fun entry => (entry.1, f entry.1 entry.2)) =
      putEntry key (f key value) (entries.map fun entry => (entry.1, f entry.1 entry.2)) := by
  induction entries with
  | nil => rfl
  | cons entry rest ih =>
      simp only [putEntry, List.map_cons]
      split
      · rfl
      · rw [List.map_cons, ih]

theorem putEntry_eq_self [DecidableEq κ] {key : κ} {value : α} {entries : List (κ × α)}
    (h : lookupEntry key entries = some value) : putEntry key value entries = entries := by
  induction entries with
  | nil => cases h
  | cons entry rest ih =>
      obtain ⟨other, found⟩ := entry
      simp only [putEntry, lookupEntry] at h ⊢
      split
      · next heq =>
          rw [if_pos heq, Option.some.injEq] at h
          rw [heq, h]
      · next hne =>
          rw [if_neg hne] at h
          rw [ih h]

theorem sweepEntries_map {f : α → β} {g : α → Except ε Unit × α} {h : β → Except ε Unit × β}
    (hcommute : ∀ value, h (f value) = ((g value).1, f (g value).2)) (entries : List (κ × α)) :
    sweepEntries h (entries.map fun entry => (entry.1, f entry.2)) =
      ((sweepEntries g entries).1,
        (sweepEntries g entries).2.map fun entry => (entry.1, f entry.2)) := by
  induction entries with
  | nil => rfl
  | cons entry rest ih =>
      simp only [List.map_cons, sweepEntries, hcommute]
      rcases g entry.2 with ⟨failure | _, changed⟩
      · rfl
      · simp only [ih, List.map_cons]

/-- A sweep goes through all values, or it stops at the first failure and leaves alone what is
behind. -/
theorem sweepEntries_cases (f : α → Except ε Unit × α) (entries : List (κ × α)) :
    (∀ entry ∈ entries, (f entry.2).1 = .ok ()) ∧
        sweepEntries f entries =
          (.ok (), entries.map fun entry => (entry.1, (f entry.2).2)) ∨
      ∃ front key value back failure, entries = front ++ (key, value) :: back ∧
        (∀ entry ∈ front, (f entry.2).1 = .ok ()) ∧ (f value).1 = .error failure ∧
        sweepEntries f entries =
          (.error failure, (front.map fun entry => (entry.1, (f entry.2).2)) ++
            (key, (f value).2) :: back) := by
  induction entries with
  | nil => exact Or.inl ⟨fun _ hentry => absurd hentry List.not_mem_nil, rfl⟩
  | cons entry rest ih =>
      obtain ⟨key, value⟩ := entry
      rcases hvalue : f value with ⟨failure | _, changed⟩
      · refine Or.inr ⟨[], key, value, rest, failure, rfl, ?_, ?_, ?_⟩
        · exact fun _ hentry => absurd hentry List.not_mem_nil
        · rw [hvalue]
        · simp only [sweepEntries, hvalue, List.map_nil, List.nil_append]
      · have hok : (f value).1 = .ok () := by rw [hvalue]
        rcases ih with
          ⟨hall, hswept⟩ | ⟨front, key', value', back, failure, rfl, hall, hfails, hswept⟩
        · refine Or.inl ⟨List.forall_mem_cons.2 ⟨hok, hall⟩, ?_⟩
          simp only [sweepEntries, hvalue, hswept, List.map_cons]
        · refine Or.inr ⟨(key, value) :: front, key', value', back, failure, rfl, ?_, hfails, ?_⟩
          · exact List.forall_mem_cons.2 ⟨hok, hall⟩
          · simp only [List.cons_append, sweepEntries, hvalue, hswept, List.map_cons]

/-- Lists are equal if a function makes them equal and tells their elements apart. -/
theorem eq_of_map_eq {f : α → β} {left right : List α} (hmap : left.map f = right.map f)
    (hinj : ∀ a ∈ left, ∀ b ∈ right, f a = f b → a = b) : left = right := by
  induction left generalizing right with
  | nil =>
      cases right with
      | nil => rfl
      | cons b right => cases hmap
  | cons a left ih =>
      cases right with
      | nil => cases hmap
      | cons b right =>
          rw [List.map_cons, List.map_cons, List.cons.injEq] at hmap
          rw [hinj a List.mem_cons_self b List.mem_cons_self hmap.1, ih hmap.2 fun x hx y hy =>
            hinj x (List.mem_cons_of_mem a hx) y (List.mem_cons_of_mem b hy)]

/-! ### Tables -/

namespace Table

theorem map_map (t : Table κ α) (f : κ → α → β) (g : κ → β → γ) :
    (t.map f).map g = t.map fun key value => g key (f key value) := by
  apply Table.ext
  simp [map, Function.comp_def]

theorem map_filter {t : Table κ α} {f : κ → α → β} {p : κ → α → Bool} {q : κ → β → Bool}
    (h : ∀ key value, q key (f key value) = p key value) :
    (t.filter p).map f = (t.map f).filter q := by
  apply Table.ext
  simp [map, filter, List.filter_map, Function.comp_def, h]

theorem sweep_map (t : Table κ α) {f : α → β} {g : α → Except ε Unit × α}
    {h : β → Except ε Unit × β} (hcommute : ∀ value, h (f value) = ((g value).1, f (g value).2)) :
    (t.map fun _ => f).sweep h = ((t.sweep g).1, (t.sweep g).2.map fun _ => f) := by
  have hentries := sweepEntries_map hcommute t.entries
  refine Prod.ext ?_ (Table.ext ?_)
  · simp only [sweep, map, hentries]
  · simp only [sweep, map, hentries]

variable [DecidableEq κ]

/-- Two functions that agree on the entries of a table change it alike. -/
theorem map_congr {t : Table κ α} {f g : κ → α → β}
    (h : ∀ key value, t.find? key = some value → f key value = g key value) :
    t.map f = t.map g := by
  apply Table.ext
  apply List.map_congr_left
  intro entry hentry
  rw [h entry.1 entry.2 (find?_eq_some_iff.2 hentry)]

theorem map_eq_self {t : Table κ α} {f : κ → α → α}
    (h : ∀ key value, t.find? key = some value → f key value = value) : t.map f = t := by
  rw [map_congr h]
  apply Table.ext
  simp [map]

/-- Tables are equal if a function makes them equal and tells their values apart. -/
theorem eq_of_map_eq {t u : Table κ α} {f : α → β} (hmap : (t.map fun _ => f) = u.map fun _ => f)
    (hinj : ∀ key value other, t.find? key = some value → u.find? key = some other →
      f value = f other → value = other) : t = u := by
  refine Table.ext (Retrace.eq_of_map_eq (congrArg entries hmap) ?_)
  rintro ⟨key, value⟩ hvalue ⟨key', other⟩ hother heq
  obtain ⟨rfl, hsame⟩ := Prod.mk.inj heq
  rw [hinj key value other (find?_eq_some_iff.2 hvalue) (find?_eq_some_iff.2 hother) hsame]

theorem insert_eq_self {t : Table κ α} {key : κ} {value : α} (h : t.find? key = some value) :
    t.insert key value = t :=
  Table.ext (putEntry_eq_self h)

theorem map_insert (t : Table κ α) (f : κ → α → β) (key : κ) (value : α) :
    (t.insert key value).map f = (t.map f).insert key (f key value) :=
  Table.ext (map_putEntry f key value t.entries)

theorem map_erase (t : Table κ α) (f : κ → α → β) (key : κ) :
    (t.erase key).map f = (t.map f).erase key :=
  map_filter fun _ _ => rfl

end Table

end Retrace
