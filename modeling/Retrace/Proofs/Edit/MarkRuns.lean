import Mathlib.Data.List.Induction
import Retrace.Proofs.Edit.Marks
import Retrace.Proofs.Edit.Replay
import Retrace.Proofs.Table.Same

/-!
# Named offsets through a run of calls

Names are put in, taken out and carried over edits in any order.  Two things can be asked
afterwards, in which order the names are listed and which offset a name has, and both have answers
in terms of the calls alone.  A name is there if it was put in and not taken out since (`Holds`).
Its place is that of the call that put it in when it was not there (`ArrivesAt`), and a call that
puts it in again does not count.  Its offset comes from the call that put it in last, whether it was
there or not (`Leaves`).

All three look at the calls behind a certain one, so the inductions go over the end of the run: a
run with one more call holds what it held before, except for what this call writes
(`holds_concat_iff`, `arrivesAt_concat_iff`, `leaves_concat_iff`).

For the comparison of two runs no history is needed.  What a call makes of a name depends on what
the names find before it, and not on their order (`find?_step_congr`).
-/

namespace Retrace.Marks

/-- Whether a call puts a name in or takes it out. -/
def Call.writes (name : MarkName) : Call → Bool
  | .add other _ => other = name
  | .remove other => other = name
  | .carry _ => false

/-- The edits that a call carries offsets over. -/
def Call.edits : Call → List Edit
  | .carry edit => [edit]
  | _ => []

variable {marks other reached : Marks} {calls : List Call} {call : Call} {name : MarkName}
  {edit : Edit} {offset moved place : Nat}

theorem run_cons_eq_ok_iff : Marks.run marks (call :: calls) = .ok reached ↔
    ∃ next, Marks.step marks call = .ok next ∧ Marks.run next calls = .ok reached := by
  rw [run]
  rcases Marks.step marks call with fault | next
  · simp
  · simp

/-- A run with one more call comes to its end if the run does and the call does. -/
theorem run_concat_eq_ok_iff : Marks.run marks (calls ++ [call]) = .ok reached ↔
    ∃ before, Marks.run marks calls = .ok before ∧ Marks.step before call = .ok reached := by
  induction calls generalizing marks with
  | nil =>
      rw [List.nil_append, run_cons_eq_ok_iff]
      simp [run]
  | cons first rest ih =>
      simp only [List.cons_append, run_cons_eq_ok_iff, ih]
      constructor
      · rintro ⟨next, hfirst, before, hrest, hcall⟩
        exact ⟨before, ⟨next, hfirst, hrest⟩, hcall⟩
      · rintro ⟨before, ⟨next, hfirst, hrest⟩, hcall⟩
        exact ⟨next, hfirst, before, hrest, hcall⟩

/-! ### One call -/

/-- All named offsets are carried over an edit exactly if the removed text ends in range and each of
them can be carried. -/
theorem carry_fst_eq_ok_iff : (Marks.carry marks edit).1 = .ok () ↔
    edit.offset + edit.removed.utf8ByteSize ≤ Offset.limit ∧
      ∀ name offset, marks.find? name = some offset →
        edit.carry offset = .ok (edit.settle offset) := by
  constructor
  · intro h
    refine ⟨Nat.le_of_not_lt fun hbeyond => ?_, (carry_eq_ok h).2⟩
    rw [carry_of_beyond marks hbeyond] at h
    cases h
  · rintro ⟨hfits, hcarries⟩
    have hshifts : ∀ name offset, marks.find? name = some offset →
        (edit.shift offset).1 = .ok () := by
      intro name offset hfind
      rw [Edit.shift, hcarries name offset hfind]
    rw [carry_eq_sweep marks hfits, Table.sweep_of_forall_ok hshifts]

/-- So a call that carries offsets comes to its end exactly then, and every offset settles. -/
theorem step_carry_eq_ok_iff : Marks.step marks (.carry edit) = .ok reached ↔
    (edit.offset + edit.removed.utf8ByteSize ≤ Offset.limit ∧
      ∀ name offset, marks.find? name = some offset →
        edit.carry offset = .ok (edit.settle offset)) ∧
    reached = marks.map fun _ => edit.settle := by
  rw [← carry_fst_eq_ok_iff]
  rcases hcarry : Marks.carry marks edit with ⟨fault | _, carried⟩
  · simp [step, hcarry]
  · have hok : (Marks.carry marks edit).1 = .ok () := congrArg Prod.fst hcarry
    have hsettled : carried = marks.map fun _ => edit.settle :=
      (congrArg Prod.snd hcarry).symm.trans (carry_eq_ok hok).1
    simp [step, hcarry, ← hsettled, eq_comm]

/-- Only a call that puts a new name in adds to the names, and it adds at the end. -/
theorem keys_step_cases (h : Marks.step marks call = .ok reached) :
    reached.keys.Sublist marks.keys ∨
      ∃ name offset, call = .add name offset ∧ name ∉ marks.keys ∧
        reached.keys = marks.keys ++ [name] := by
  cases call with
  | add name offset =>
      cases h
      by_cases hmem : name ∈ marks.keys
      · left
        rw [Table.keys_insert, if_pos hmem]
      · right
        refine ⟨name, offset, rfl, hmem, ?_⟩
        rw [Table.keys_insert, if_neg hmem]
  | remove name =>
      cases h
      left
      rw [Table.keys_erase]
      exact List.filter_sublist
  | carry edit =>
      obtain ⟨-, rfl⟩ := step_carry_eq_ok_iff.1 h
      left
      rw [Table.keys_map]

theorem mem_keys_step_iff (h : Marks.step marks call = .ok reached) :
    name ∈ reached.keys ↔
      (∃ offset, call = .add name offset) ∨ call ≠ .remove name ∧ name ∈ marks.keys := by
  cases call with
  | add other offset =>
      cases h
      by_cases hname : name = other
      · simp [Table.mem_keys_iff_exists_find?, hname]
      · simp [Table.mem_keys_iff_exists_find?, hname, Ne.symm hname]
  | remove other =>
      cases h
      by_cases hname : name = other
      · simp [Table.mem_keys_iff_exists_find?, hname]
      · simp [Table.mem_keys_iff_exists_find?, hname, Ne.symm hname]
  | carry edit =>
      obtain ⟨-, rfl⟩ := step_carry_eq_ok_iff.1 h
      simp

/-- After a call a name has the offset that the call gives to it, or its earlier offset carried over
what the call carries over. -/
theorem find?_step_iff (h : Marks.step marks call = .ok reached) :
    reached.find? name = some moved ↔
      call = .add name moved ∨ call.writes name = false ∧
        ∃ before : Nat, marks.find? name = some before ∧
          carryThrough call.edits before = .ok moved := by
  cases call with
  | add other offset =>
      cases h
      rw [Table.find?_insert]
      by_cases hname : name = other
      · subst hname
        simp [Call.writes]
      · simp [hname, Ne.symm hname, Call.writes, Call.edits, carryThrough]
  | remove other =>
      cases h
      rw [Table.find?_erase]
      by_cases hname : name = other
      · simp [hname, Call.writes]
      · simp [hname, Ne.symm hname, Call.writes, Call.edits, carryThrough]
  | carry edit =>
      obtain ⟨⟨-, hcarries⟩, rfl⟩ := step_carry_eq_ok_iff.1 h
      simp only [Table.find?_map, Option.map_eq_some_iff, Call.edits, carryThrough_singleton]
      constructor
      · rintro ⟨before, hbefore, rfl⟩
        exact Or.inr ⟨rfl, before, hbefore, hcarries name before hbefore⟩
      · rintro (hadds | ⟨-, before, hbefore, hmoved⟩)
        · cases hadds
        · rw [hcarries name before hbefore] at hmoved
          cases hmoved
          exact ⟨before, hbefore, rfl⟩

/-- Where names find the same before a call, they find the same after it, in whichever order they
are listed. -/
theorem find?_step_congr (hsame : ∀ name, marks.find? name = other.find? name)
    (h : Marks.step marks call = .ok reached) :
    ∃ otherReached, Marks.step other call = .ok otherReached ∧
      ∀ name, reached.find? name = otherReached.find? name := by
  have hends : ∃ otherReached, Marks.step other call = .ok otherReached := by
    cases call with
    | add name offset => exact ⟨_, rfl⟩
    | remove name => exact ⟨_, rfl⟩
    | carry edit =>
        obtain ⟨⟨hfits, hcarries⟩, -⟩ := step_carry_eq_ok_iff.1 h
        refine ⟨_, step_carry_eq_ok_iff.2 ⟨⟨hfits, fun name offset hfind => ?_⟩, rfl⟩⟩
        exact hcarries name offset ((hsame name).trans hfind)
  obtain ⟨otherReached, hother⟩ := hends
  refine ⟨otherReached, hother, fun name => Option.ext fun moved => ?_⟩
  rw [find?_step_iff h, find?_step_iff hother, hsame name]

theorem find?_run_congr (hsame : ∀ name, marks.find? name = other.find? name)
    (h : Marks.run marks calls = .ok reached) :
    ∃ otherReached, Marks.run other calls = .ok otherReached ∧
      ∀ name, reached.find? name = otherReached.find? name := by
  induction calls generalizing marks other with
  | nil =>
      cases h
      exact ⟨other, rfl, hsame⟩
  | cons call rest ih =>
      obtain ⟨next, hstep, hrest⟩ := run_cons_eq_ok_iff.1 h
      obtain ⟨otherNext, hother, hnext⟩ := find?_step_congr hsame hstep
      obtain ⟨otherReached, hreached, hfinds⟩ := ih hnext hrest
      exact ⟨otherReached, run_cons_eq_ok_iff.2 ⟨otherNext, hother, hreached⟩, hfinds⟩

/-! ### What a run says of a name -/

/-- A call and all behind it, at the end of a longer run: the call is the last one, or the last one
is behind it. -/
theorem concat_eq_append_cons_iff {front back : List Call} {last : Call} :
    calls ++ [last] = front ++ call :: back ↔
      (back = [] ∧ calls = front ∧ last = call) ∨
        ∃ rest, back = rest ++ [last] ∧ calls = front ++ call :: rest := by
  constructor
  · intro h
    rcases List.eq_nil_or_concat back with rfl | ⟨rest, other, rfl⟩
    · obtain ⟨hfront, hlast⟩ := List.append_inj' h rfl
      exact Or.inl ⟨rfl, hfront, List.singleton_inj.1 hlast⟩
    · rw [List.concat_eq_append, ← List.cons_append, ← List.append_assoc] at h
      obtain ⟨hfront, hlast⟩ := List.append_inj' h rfl
      rw [List.singleton_inj.1 hlast, List.concat_eq_append]
      exact Or.inr ⟨rest, rfl, hfront⟩
  · rintro (⟨rfl, rfl, rfl⟩ | ⟨rest, rfl, rfl⟩)
    · rfl
    · rw [List.append_assoc, List.cons_append]

/-- The call behind a front of a run puts a name in, and none behind it takes it out. -/
def KeptFrom (calls front : List Call) (name : MarkName) : Prop :=
  ∃ offset back, calls = front ++ .add name offset :: back ∧ .remove name ∉ back

/-- A name was put in, and not taken out since. -/
def Holds (calls : List Call) (name : MarkName) : Prop := ∃ front, KeptFrom calls front name

/-- A name was put in at a place of a run where it was not there, and not taken out since. -/
def ArrivesAt (calls : List Call) (name : MarkName) (place : Nat) : Prop :=
  ∃ front, KeptFrom calls front name ∧ ¬ Holds front name ∧ front.length = place

/-- The offset that was put in last under a name comes to this one over the edits behind it. -/
def Leaves (calls : List Call) (name : MarkName) (moved : Nat) : Prop :=
  ∃ front offset back, calls = front ++ .add name offset :: back ∧
    (∀ call ∈ back, call.writes name = false) ∧
    carryThrough (back.flatMap Call.edits) offset = .ok moved

theorem not_holds_nil : ¬ Holds [] name := by
  rintro ⟨front, offset, back, heq, -⟩
  cases front <;> cases heq

theorem not_leaves_nil : ¬ Leaves [] name moved := by
  rintro ⟨front, offset, back, heq, -⟩
  cases front <;> cases heq

theorem keptFrom_concat_iff {front : List Call} : KeptFrom (calls ++ [call]) front name ↔
    (∃ offset, call = .add name offset) ∧ front = calls ∨
      call ≠ .remove name ∧ KeptFrom calls front name := by
  constructor
  · rintro ⟨offset, back, heq, hkept⟩
    rcases concat_eq_append_cons_iff.1 heq with ⟨-, rfl, hlast⟩ | ⟨rest, rfl, hcalls⟩
    · exact Or.inl ⟨⟨offset, hlast⟩, rfl⟩
    · rw [List.mem_append, List.mem_singleton, not_or] at hkept
      exact Or.inr ⟨Ne.symm hkept.2, offset, rest, hcalls, hkept.1⟩
  · rintro (⟨⟨offset, rfl⟩, rfl⟩ | ⟨hne, offset, back, rfl, hkept⟩)
    · exact ⟨offset, [], rfl, List.not_mem_nil⟩
    · refine ⟨offset, back ++ [call], by simp, ?_⟩
      rw [List.mem_append, List.mem_singleton, not_or]
      exact ⟨hkept, Ne.symm hne⟩

theorem holds_concat_iff : Holds (calls ++ [call]) name ↔
    (∃ offset, call = .add name offset) ∨ call ≠ .remove name ∧ Holds calls name := by
  simp only [Holds, keptFrom_concat_iff, exists_or, exists_and_left, exists_eq, and_true]

theorem arrivesAt_concat_iff : ArrivesAt (calls ++ [call]) name place ↔
    (∃ offset, call = .add name offset) ∧ ¬ Holds calls name ∧ calls.length = place ∨
      call ≠ .remove name ∧ ArrivesAt calls name place := by
  constructor
  · rintro ⟨front, hkept, hnew, hplace⟩
    rcases keptFrom_concat_iff.1 hkept with ⟨hadds, rfl⟩ | ⟨hne, hfront⟩
    · exact Or.inl ⟨hadds, hnew, hplace⟩
    · exact Or.inr ⟨hne, front, hfront, hnew, hplace⟩
  · rintro (⟨hadds, hnew, hplace⟩ | ⟨hne, front, hfront, hnew, hplace⟩)
    · exact ⟨calls, keptFrom_concat_iff.2 (Or.inl ⟨hadds, rfl⟩), hnew, hplace⟩
    · exact ⟨front, keptFrom_concat_iff.2 (Or.inr ⟨hne, hfront⟩), hnew, hplace⟩

theorem leaves_concat_iff : Leaves (calls ++ [call]) name moved ↔
    call = .add name moved ∨ call.writes name = false ∧
      ∃ before : Nat, Leaves calls name before ∧ carryThrough call.edits before = .ok moved := by
  constructor
  · rintro ⟨front, offset, back, heq, hquiet, hmoved⟩
    rcases concat_eq_append_cons_iff.1 heq with ⟨rfl, -, hlast⟩ | ⟨rest, rfl, hcalls⟩
    · cases hmoved
      exact Or.inl hlast
    · rw [List.forall_mem_append, List.forall_mem_singleton] at hquiet
      rw [List.flatMap_append, List.flatMap_singleton, carryThrough_append_eq_ok_iff] at hmoved
      obtain ⟨before, hbefore, hlast⟩ := hmoved
      exact Or.inr ⟨hquiet.2, before, ⟨front, offset, rest, hcalls, hquiet.1, hbefore⟩, hlast⟩
  · rintro (rfl | ⟨hlast, before, ⟨front, offset, back, rfl, hquiet, hbefore⟩, hmoved⟩)
    · exact ⟨calls, moved, [], rfl, List.forall_mem_nil _, rfl⟩
    · refine ⟨front, offset, back ++ [call], by simp, ?_, ?_⟩
      · exact List.forall_mem_append.2 ⟨hquiet, List.forall_mem_singleton.2 hlast⟩
      · rw [List.flatMap_append, List.flatMap_singleton, carryThrough_append_eq_ok_iff]
        exact ⟨before, hbefore, hmoved⟩

theorem ArrivesAt.holds (h : ArrivesAt calls name place) : Holds calls name := by
  obtain ⟨front, hkept, -, -⟩ := h
  exact ⟨front, hkept⟩

theorem ArrivesAt.lt_length (h : ArrivesAt calls name place) : place < calls.length := by
  obtain ⟨front, ⟨offset, back, rfl, -⟩, -, rfl⟩ := h
  simp

/-- A name that is there keeps the place where it arrived. -/
theorem ArrivesAt.of_concat (h : ArrivesAt (calls ++ [call]) name place) (hold : Holds calls name) :
    ArrivesAt calls name place := by
  rcases arrivesAt_concat_iff.1 h with ⟨-, hnew, -⟩ | ⟨-, harrives⟩
  · exact absurd hold hnew
  · exact harrives

/-- A name that is not there arrives at the end. -/
theorem ArrivesAt.eq_length (h : ArrivesAt (calls ++ [call]) name place)
    (hnew : ¬ Holds calls name) : calls.length = place := by
  rcases arrivesAt_concat_iff.1 h with ⟨-, -, hplace⟩ | ⟨-, harrives⟩
  · exact hplace
  · exact absurd harrives.holds hnew

theorem Holds.exists_arrivesAt (h : Holds calls name) : ∃ place, ArrivesAt calls name place := by
  induction calls using List.reverseRecOn with
  | nil => exact absurd h not_holds_nil
  | append_singleton calls call ih =>
      by_cases hold : Holds calls name
      · obtain ⟨place, hplace⟩ := ih hold
        refine ⟨place, arrivesAt_concat_iff.2 (Or.inr ⟨?_, hplace⟩)⟩
        rintro rfl
        rcases holds_concat_iff.1 h with ⟨offset, hadds⟩ | ⟨hne, -⟩
        · cases hadds
        · exact hne rfl
      · rcases holds_concat_iff.1 h with hadds | ⟨-, hholds⟩
        · exact ⟨calls.length, arrivesAt_concat_iff.2 (Or.inl ⟨hadds, hold, rfl⟩)⟩
        · exact absurd hholds hold

/-! ### A whole run -/

theorem mem_keys_run_iff (h : Marks.run ∅ calls = .ok marks) :
    name ∈ marks.keys ↔ Holds calls name := by
  induction calls using List.reverseRecOn generalizing marks with
  | nil =>
      cases h
      exact iff_of_false List.not_mem_nil not_holds_nil
  | append_singleton calls call ih =>
      obtain ⟨before, hbefore, hstep⟩ := run_concat_eq_ok_iff.1 h
      rw [mem_keys_step_iff hstep, holds_concat_iff, ih hbefore]

theorem find?_run_iff (h : Marks.run ∅ calls = .ok marks) :
    marks.find? name = some moved ↔ Leaves calls name moved := by
  induction calls using List.reverseRecOn generalizing marks moved with
  | nil =>
      cases h
      exact iff_of_false (fun hfind => nomatch hfind) not_leaves_nil
  | append_singleton calls call ih =>
      obtain ⟨before, hbefore, hstep⟩ := run_concat_eq_ok_iff.1 h
      simp only [find?_step_iff hstep, leaves_concat_iff, ih hbefore]

/-- Of two names in a row, the first arrived earlier. -/
def ArrivesBefore (calls : List Call) (name later : MarkName) : Prop :=
  ∀ place laterPlace, ArrivesAt calls name place → ArrivesAt calls later laterPlace →
    place < laterPlace

theorem ArrivesBefore.concat {later : MarkName} (h : ArrivesBefore calls name later)
    (hname : Holds calls name) (hlater : Holds calls later) (call : Call) :
    ArrivesBefore (calls ++ [call]) name later := by
  intro place laterPlace harrives hlaterArrives
  exact h place laterPlace (harrives.of_concat hname) (hlaterArrives.of_concat hlater)

/-- Names are listed in the order in which they arrived. -/
theorem pairwise_keys_run (h : Marks.run ∅ calls = .ok marks) :
    marks.keys.Pairwise (ArrivesBefore calls) := by
  induction calls using List.reverseRecOn generalizing marks with
  | nil =>
      cases h
      exact List.Pairwise.nil
  | append_singleton calls call ih =>
      obtain ⟨before, hbefore, hstep⟩ := run_concat_eq_ok_iff.1 h
      have hold : before.keys.Pairwise (ArrivesBefore (calls ++ [call])) :=
        (ih hbefore).imp_of_mem fun hname hlater hless => hless.concat
          ((mem_keys_run_iff hbefore).1 hname) ((mem_keys_run_iff hbefore).1 hlater) call
      rcases keys_step_cases hstep with hsublist | ⟨added, offset, rfl, hnew, hkeys⟩
      · exact hold.sublist hsublist
      · rw [hkeys]
        refine List.pairwise_append.2 ⟨hold, List.pairwise_singleton _ _, ?_⟩
        intro name hname later hlater place laterPlace harrives hlaterArrives
        rw [List.mem_singleton] at hlater
        subst hlater
        have hnotHeld : ¬ Holds calls later :=
          fun hheld => hnew ((mem_keys_run_iff hbefore).2 hheld)
        calc place < calls.length :=
              (harrives.of_concat ((mem_keys_run_iff hbefore).1 hname)).lt_length
          _ = laterPlace := hlaterArrives.eq_length hnotHeld

/-- **Named offsets are listed by arrival and compared by what they hold.**  After a run of calls
from nothing, each name that is there is listed once, and these are the names that were put in and
not taken out since.  They are listed in the order in which they arrived, that is, in which they
were put in when they were not there.  The offset of a name is the last one that was put in under
it, carried over the edits behind that call, and a name without one has no offset.  To put in a name
that is there changes its offset in its place, and to take it out leaves the others in their order.

Two tables of named offsets compare as equal exactly if they list the same entries in some order.
Then any run of calls that comes to its end with the one does so with the other, and what comes out
compares as equal again. -/
theorem run_lists_arrivals :
    (∀ calls marks, Marks.run ∅ calls = .ok marks →
      marks.keys.Nodup ∧
      (∀ name, name ∈ marks.keys ↔ Holds calls name) ∧
      (∀ name ∈ marks.keys, ∃ place, ArrivesAt calls name place) ∧
      marks.keys.Pairwise (ArrivesBefore calls) ∧
      (∀ name, ∀ moved : Nat, marks.find? name = some moved ↔ Leaves calls name moved) ∧
      ∀ name ∈ marks.keys, ∃ front old back, marks.entries = front ++ (name, old) :: back ∧
        (∀ offset, ∃ next, Marks.step marks (.add name offset) = .ok next ∧
          next.entries = front ++ (name, offset) :: back) ∧
        ∃ next, Marks.step marks (.remove name) = .ok next ∧ next.entries = front ++ back) ∧
    (∀ marks other : Marks,
      marks.sameEntries other = true ↔ marks.entries.Perm other.entries) ∧
    ∀ (marks other reached : Marks) (calls : List Call), marks.sameEntries other = true →
      Marks.run marks calls = .ok reached →
        ∃ otherReached, Marks.run other calls = .ok otherReached ∧
          reached.sameEntries otherReached = true := by
  refine ⟨?_, fun marks other => Table.sameEntries_iff_perm, ?_⟩
  · intro calls marks hrun
    refine ⟨marks.keys_nodup, fun name => mem_keys_run_iff hrun, ?_, pairwise_keys_run hrun,
      fun name moved => find?_run_iff hrun, ?_⟩
    · exact fun name hmem => ((mem_keys_run_iff hrun).1 hmem).exists_arrivesAt
    · intro name hmem
      obtain ⟨front, old, back, hentries⟩ := Table.exists_entries_eq hmem
      refine ⟨front, old, back, hentries, fun offset => ?_, ?_⟩
      · exact ⟨_, rfl, Table.entries_insert_of_eq hentries offset⟩
      · exact ⟨_, rfl, Table.entries_erase_of_eq hentries⟩
  · intro marks other reached calls hsame hrun
    obtain ⟨otherReached, hother, hfinds⟩ :=
      find?_run_congr (Table.sameEntries_iff_find?.1 hsame) hrun
    exact ⟨otherReached, hother, Table.sameEntries_iff_find?.2 hfinds⟩

/-- A name that is put in again keeps its place, and one that is taken out and put back goes to the
end.  Only the first of them is there for the edit.  A table in the other order compares as equal,
and it still does after one more edit and one more offset. -/
theorem run_lists_arrivals_of_name_put_back :
    let calls : List Call := [.add ⟨"a"⟩ 3, .add ⟨"b"⟩ 5, .remove ⟨"a"⟩, .add ⟨"b"⟩ 7,
      .carry ⟨2, "x", "yz"⟩, .add ⟨"a"⟩ 1]
    let later : List Call := [.carry ⟨0, "", "w"⟩, .add ⟨"b"⟩ 4]
    let marks : Marks := .ofList [(⟨"b"⟩, 8), (⟨"a"⟩, 1)]
    let other : Marks := .ofList [(⟨"a"⟩, 1), (⟨"b"⟩, 8)]
    let reached : Marks := .ofList [(⟨"b"⟩, 4), (⟨"a"⟩, 2)]
    Marks.run ∅ calls = .ok marks ∧ marks.keys = [⟨"b"⟩, ⟨"a"⟩] ∧
      ArrivesBefore calls ⟨"b"⟩ ⟨"a"⟩ ∧ Leaves calls ⟨"b"⟩ 8 ∧
      marks ≠ other ∧ marks.sameEntries other = true ∧ Marks.run marks later = .ok reached ∧
      ∃ otherReached, Marks.run other later = .ok otherReached ∧ reached ≠ otherReached ∧
        reached.sameEntries otherReached = true := by
  intro calls later marks other reached
  have hrun : Marks.run ∅ calls = .ok marks := by decide
  have hkeys : marks.keys = [⟨"b"⟩, ⟨"a"⟩] := by decide
  have hsame : marks.sameEntries other = true := by decide
  have hlater : Marks.run marks later = .ok reached := by decide
  obtain ⟨-, -, -, hordered, hfinds, -⟩ := run_lists_arrivals.1 calls marks hrun
  obtain ⟨otherReached, hother, hreached⟩ :=
    run_lists_arrivals.2.2 marks other reached later hsame hlater
  refine ⟨hrun, hkeys, ?_, (hfinds ⟨"b"⟩ 8).1 (by decide), by decide, hsame, hlater, otherReached,
    hother, ?_, hreached⟩
  · rw [hkeys] at hordered
    exact List.rel_of_pairwise_cons hordered (List.mem_singleton_self _)
  · rintro rfl
    revert hother
    decide

end Retrace.Marks
