import Retrace.Table.Entries

/-!
# Tables that remember insertion order

A table is a finite map that lists its keys in the order in which they came in.
A key that is written again keeps its place, and a key that is erased and
written later goes to the end.  Everything the library keeps under a name or a
number is a table: open documents, the path index, live tracers, sessions
and named offsets.

The keys are distinct by construction (`Table.keys_nodup`), so looking a key up
and running through the entries are two views of one thing.  The main lemmas say
what each operation does to the first view (`find?_insert`, `find?_erase`,
`find?_map`, `find?_filter`) and to the second (`keys_insert`, `keys_map`,
`keys_erase`, `keys_sweep`).
-/

namespace Retrace

variable {κ α β ε : Type}

/-- A finite map with its entries in insertion order. -/
structure Table (κ α : Type) where
  entries : List (κ × α)
  keys_nodup : (entries.map Prod.fst).Nodup
  deriving DecidableEq, Repr

namespace Table

@[ext] theorem ext {t u : Table κ α} (h : t.entries = u.entries) : t = u := by
  cases t
  cases u
  cases h
  rfl

def empty : Table κ α := ⟨[], List.nodup_nil⟩

instance : EmptyCollection (Table κ α) := ⟨empty⟩

instance : Inhabited (Table κ α) := ⟨empty⟩

/-- The keys, in insertion order. -/
def keys (t : Table κ α) : List κ := t.entries.map Prod.fst

/-- The values, in the order of their keys. -/
def values (t : Table κ α) : List α := t.entries.map Prod.snd

def size (t : Table κ α) : Nat := t.entries.length

def isEmpty (t : Table κ α) : Bool := t.entries.isEmpty

/-- Keep the entries that satisfy `p`, in their order. -/
def filter (t : Table κ α) (p : κ → α → Bool) : Table κ α where
  entries := t.entries.filter fun entry => p entry.1 entry.2
  keys_nodup := t.keys_nodup.sublist (List.filter_sublist.map Prod.fst)

/-- Change every value, knowing its key. -/
def map (t : Table κ α) (f : κ → α → β) : Table κ β where
  entries := t.entries.map fun entry => (entry.1, f entry.1 entry.2)
  keys_nodup := by
    rw [List.map_map]
    exact t.keys_nodup

/-- Run `f` on the values in order, up to the first failure. -/
def sweep (t : Table κ α) (f : α → Except ε Unit × α) : Except ε Unit × Table κ α :=
  ((sweepEntries f t.entries).1,
    ⟨(sweepEntries f t.entries).2, by rw [keys_sweepEntries]; exact t.keys_nodup⟩)

@[simp] theorem keys_empty : (∅ : Table κ α).keys = [] := rfl

@[simp] theorem keys_map (t : Table κ α) (f : κ → α → β) : (t.map f).keys = t.keys := by
  simp [keys, map, Function.comp_def]

@[simp] theorem keys_sweep (t : Table κ α) (f : α → Except ε Unit × α) :
    (t.sweep f).2.keys = t.keys :=
  keys_sweepEntries f t.entries

/-! ### Reading and writing under a key -/

variable [DecidableEq κ]

def find? (t : Table κ α) (key : κ) : Option α := lookupEntry key t.entries

def contains (t : Table κ α) (key : κ) : Bool := (t.find? key).isSome

/-- Write a value under a key.  A new key goes to the end. -/
def insert (t : Table κ α) (key : κ) (value : α) : Table κ α where
  entries := putEntry key value t.entries
  keys_nodup := by
    rw [keys_putEntry]
    split
    · exact t.keys_nodup
    · next h =>
        refine List.nodup_append.2 ⟨t.keys_nodup, by simp, ?_⟩
        intro a ha b hb hab
        rw [List.mem_singleton.1 hb] at hab
        exact h (hab ▸ ha)

/-- Take a key out.  The other entries keep their order. -/
def erase (t : Table κ α) (key : κ) : Table κ α := t.filter fun k _ => k ≠ key

/-- The table made by writing a list of entries in turn. -/
def ofList (entries : List (κ × α)) : Table κ α :=
  entries.foldl (fun t entry => t.insert entry.1 entry.2) ∅

/-- Whether two tables hold the same entries, in whatever order: they are of one
    size, and each entry of the one is in the other. -/
def sameEntries [DecidableEq α] (t u : Table κ α) : Bool :=
  t.size = u.size && t.entries.all fun entry => u.find? entry.1 = some entry.2

/-! ### What a key finds -/

theorem find?_eq_some_iff {t : Table κ α} {key : κ} {value : α} :
    t.find? key = some value ↔ (key, value) ∈ t.entries :=
  lookupEntry_eq_some_iff t.keys_nodup

theorem find?_eq_none_iff {t : Table κ α} {key : κ} :
    t.find? key = none ↔ key ∉ t.keys :=
  lookupEntry_eq_none_iff

@[simp] theorem find?_empty (key : κ) : (∅ : Table κ α).find? key = none := rfl

@[simp] theorem find?_insert (t : Table κ α) (key other : κ) (value : α) :
    (t.insert key value).find? other = if other = key then some value else t.find? other :=
  lookupEntry_putEntry key other value t.entries

@[simp] theorem find?_filter (t : Table κ α) (p : κ → α → Bool) (key : κ) :
    (t.filter p).find? key = (t.find? key).filter (p key) :=
  lookupEntry_filter p key t.keys_nodup

@[simp] theorem find?_erase (t : Table κ α) (key other : κ) :
    (t.erase key).find? other = if other = key then none else t.find? other := by
  rw [erase, find?_filter]
  by_cases h : other = key
  · subst h
    cases t.find? other <;> simp [Option.filter]
  · cases t.find? other <;> simp [Option.filter, h]

@[simp] theorem find?_map (t : Table κ α) (f : κ → α → β) (key : κ) :
    (t.map f).find? key = (t.find? key).map (f key) :=
  lookupEntry_map f key t.entries

theorem find?_sweep (t : Table κ α) (f : α → Except ε Unit × α) (key : κ) :
    (t.sweep f).2.find? key = t.find? key ∨
      (t.sweep f).2.find? key = (t.find? key).map fun value => (f value).2 :=
  lookupEntry_sweepEntries f key t.entries

/-- A sweep that meets no failure changes every value. -/
theorem sweep_of_forall_ok {t : Table κ α} {f : α → Except ε Unit × α}
    (h : ∀ key value, t.find? key = some value → (f value).1 = .ok ()) :
    t.sweep f = (.ok (), t.map fun _ value => (f value).2) := by
  have hswept := sweepEntries_of_forall_ok fun entry hentry =>
    h entry.1 entry.2 (find?_eq_some_iff.2 hentry)
  refine Prod.ext ?_ (Table.ext ?_)
  · simp [sweep, hswept]
  · simp [sweep, hswept, map]

/-! ### The order of the keys -/

theorem keys_insert (t : Table κ α) (key : κ) (value : α) :
    (t.insert key value).keys = if key ∈ t.keys then t.keys else t.keys ++ [key] :=
  keys_putEntry key value t.entries

theorem keys_erase (t : Table κ α) (key : κ) :
    (t.erase key).keys = t.keys.filter (fun k => k ≠ key) := by
  simp [keys, erase, filter, List.filter_map, Function.comp_def]

end Table

end Retrace
