/-!
# Lists of entries

A list of keyed values, read as a finite map: the first entry under a key counts.
`lookupEntry` reads it, `putEntry` writes it without moving a key that is there,
and `sweepEntries` changes the values one after the other until a change fails.

The main lemmas say what the two writers do to the keys (`keys_putEntry`,
`keys_sweepEntries`) and to what a key finds (`lookupEntry_putEntry`).  Where the
keys are distinct, a key finds a value exactly if the pair is in the list
(`lookupEntry_eq_some_iff`).
-/

namespace Retrace

variable {κ α β ε : Type}

/-- The value that a list of entries gives to a key: that of its first entry. -/
def lookupEntry [DecidableEq κ] (key : κ) : List (κ × α) → Option α
  | [] => none
  | (k, v) :: rest => if k = key then some v else lookupEntry key rest

/-- Write a value under a key, in place if the key is there and at the end if not. -/
def putEntry [DecidableEq κ] (key : κ) (value : α) : List (κ × α) → List (κ × α)
  | [] => [(key, value)]
  | (k, v) :: rest =>
      if k = key then (key, value) :: rest else (k, v) :: putEntry key value rest

/-- Run `f` on the values from the first entry on and stop at the first failure.
    The value at which it stops becomes what `f` left of it, and the values behind
    it are untouched. -/
def sweepEntries (f : α → Except ε Unit × α) :
    List (κ × α) → Except ε Unit × List (κ × α)
  | [] => (.ok (), [])
  | (k, v) :: rest =>
      match f v with
      | (.error e, w) => (.error e, (k, w) :: rest)
      | (.ok (), w) =>
          let swept := sweepEntries f rest
          (swept.1, (k, w) :: swept.2)

theorem keys_putEntry [DecidableEq κ] (key : κ) (value : α) (entries : List (κ × α)) :
    (putEntry key value entries).map Prod.fst =
      if key ∈ entries.map Prod.fst then entries.map Prod.fst
      else entries.map Prod.fst ++ [key] := by
  induction entries with
  | nil => rfl
  | cons entry rest ih =>
      by_cases h : entry.1 = key
      · simp [putEntry, h]
      · have h' : ¬ key = entry.1 := fun e => h e.symm
        by_cases hmem : key ∈ rest.map Prod.fst <;> simp_all [putEntry]

theorem keys_sweepEntries (f : α → Except ε Unit × α) (entries : List (κ × α)) :
    (sweepEntries f entries).2.map Prod.fst = entries.map Prod.fst := by
  induction entries with
  | nil => rfl
  | cons entry rest ih =>
      simp only [sweepEntries]
      split <;> simp [ih]

/-- A sweep that meets no failure changes every value. -/
theorem sweepEntries_of_forall_ok {f : α → Except ε Unit × α} {entries : List (κ × α)}
    (h : ∀ entry ∈ entries, (f entry.2).1 = .ok ()) :
    sweepEntries f entries =
      (.ok (), entries.map fun entry => (entry.1, (f entry.2).2)) := by
  induction entries with
  | nil => rfl
  | cons entry rest ih =>
      have hentry := h entry (List.mem_cons_self ..)
      have hrest := ih fun other hother => h other (List.mem_cons_of_mem _ hother)
      simp only [sweepEntries]
      split
      · next heq =>
          rw [heq] at hentry
          cases hentry
      · next heq => simp [hrest, heq]

/-- Wherever a sweep stops, a value is as it was or as `f` leaves it. -/
theorem lookupEntry_sweepEntries [DecidableEq κ] (f : α → Except ε Unit × α) (key : κ)
    (entries : List (κ × α)) :
    lookupEntry key (sweepEntries f entries).2 = lookupEntry key entries ∨
      lookupEntry key (sweepEntries f entries).2 =
        (lookupEntry key entries).map fun value => (f value).2 := by
  induction entries with
  | nil => exact Or.inl rfl
  | cons entry rest ih =>
      simp only [sweepEntries]
      by_cases hkey : entry.1 = key
      · right
        split <;> next heq => simp [lookupEntry, hkey, heq]
      · split
        · exact Or.inl (by simp [lookupEntry, hkey])
        · simpa [lookupEntry, hkey] using ih

theorem lookupEntry_putEntry [DecidableEq κ] (key other : κ) (value : α)
    (entries : List (κ × α)) :
    lookupEntry other (putEntry key value entries) =
      if other = key then some value else lookupEntry other entries := by
  induction entries with
  | nil => by_cases h : key = other <;> simp [putEntry, lookupEntry, h, eq_comm]
  | cons entry rest ih =>
      by_cases h : entry.1 = key
      · by_cases ho : other = key
        · simp [putEntry, lookupEntry, h, ho]
        · have ho' : ¬ key = other := fun e => ho e.symm
          simp [putEntry, lookupEntry, h, ho, ho']
      · by_cases ho : entry.1 = other
        · have : ¬ other = key := fun e => h (ho.trans e)
          simp [putEntry, lookupEntry, ho, this]
        · simp [putEntry, lookupEntry, h, ho, ih]

theorem lookupEntry_eq_none_iff [DecidableEq κ] {key : κ} {entries : List (κ × α)} :
    lookupEntry key entries = none ↔ key ∉ entries.map Prod.fst := by
  induction entries with
  | nil => simp [lookupEntry]
  | cons entry rest ih =>
      by_cases h : entry.1 = key
      · simp [lookupEntry, h]
      · have h' : ¬ key = entry.1 := fun e => h e.symm
        simp only [lookupEntry, h, if_false, ih, List.map_cons, List.mem_cons, h', false_or]

theorem lookupEntry_eq_some_iff [DecidableEq κ] {key : κ} {value : α}
    {entries : List (κ × α)} (distinct : (entries.map Prod.fst).Nodup) :
    lookupEntry key entries = some value ↔ (key, value) ∈ entries := by
  induction entries with
  | nil => simp [lookupEntry]
  | cons entry rest ih =>
      obtain ⟨k, v⟩ := entry
      simp only [List.map_cons, List.nodup_cons] at distinct
      by_cases h : k = key
      · subst h
        have hrest : (k, value) ∉ rest :=
          fun hmem => distinct.1 (List.mem_map.2 ⟨_, hmem, rfl⟩)
        simp [lookupEntry, hrest, eq_comm]
      · have h' : ¬ key = k := fun e => h e.symm
        simp [lookupEntry, h, h', ih distinct.2]

theorem lookupEntry_map [DecidableEq κ] (f : κ → α → β) (key : κ) (entries : List (κ × α)) :
    lookupEntry key (entries.map fun entry => (entry.1, f entry.1 entry.2)) =
      (lookupEntry key entries).map (f key) := by
  induction entries with
  | nil => rfl
  | cons entry rest ih =>
      by_cases h : entry.1 = key <;> simp [lookupEntry, h, ih]

theorem lookupEntry_filter [DecidableEq κ] (p : κ → α → Bool) (key : κ)
    {entries : List (κ × α)} (distinct : (entries.map Prod.fst).Nodup) :
    lookupEntry key (entries.filter fun entry => p entry.1 entry.2) =
      (lookupEntry key entries).filter (p key) := by
  induction entries with
  | nil => rfl
  | cons entry rest ih =>
      obtain ⟨k, v⟩ := entry
      simp only [List.map_cons, List.nodup_cons] at distinct
      by_cases h : k = key
      · subst h
        have hrest : lookupEntry k rest = none := lookupEntry_eq_none_iff.2 distinct.1
        cases hp : p k v with
        | true => simp [hp, lookupEntry, Option.filter]
        | false => simp [hp, lookupEntry, ih distinct.2, hrest, Option.filter]
      · cases hp : p k v with
        | true => simp [hp, lookupEntry, h, ih distinct.2]
        | false => simp [hp, lookupEntry, h, ih distinct.2]

end Retrace
