import Mathlib.Data.List.TakeWhile
import Retrace.Proofs.Text.Cut
import Retrace.Text.Identifier

/-!
# Where identifiers end

The end of the identifier at a caret is found in two steps.  The text is cut at the last boundary up
to the caret (`lastBoundary_divideFloor`), and from there the characters are taken as long as they
continue an identifier.  What comes out is the text in three pieces (`exists_run`).  The other way
round, three such pieces say where the run ends that goes on from the first of them
(`runEnd_append`), so the end of a run is its own answer (`isBoundary_runEnd`).  Which characters
continue an identifier does not matter for any of this.

The answer is an offset, so it is the end of the second piece as long as the text fits into 32 bits.
In a longer text it can be before the caret (`identifierEnd_lt_caret`).
-/

namespace Retrace.Text

variable {continues : Char → Bool} {text rest : String} {caret : Nat}

/-- The last place, up to an offset, at which a text can be cut. -/
structure LastBoundary (text : String) (offset boundary : Nat) : Prop where
  isBoundary : isBoundary text boundary = true
  le_min : boundary ≤ min offset text.utf8ByteSize
  is_last : ∀ other, Text.isBoundary text other = true → other ≤ min offset text.utf8ByteSize →
    other ≤ boundary

/-! ### Cutting at the last boundary -/

theorem divideFloor_width (front back : List Char) :
    divideFloor (front ++ back) (width front) = (front, back) := by
  induction front with
  | nil =>
      cases back with
      | nil => rfl
      | cons c rest => exact if_neg (Nat.not_le.2 c.utf8Size_pos)
  | cons c rest ih =>
      simp only [List.cons_append, divideFloor, width, if_pos (Nat.le_add_right _ _),
        Nat.add_sub_cancel_left, ih]

/-- No front of a list that is at most `n` bytes wide is wider than the one that is cut off. -/
theorem width_le_width_divideFloor {front back : List Char} {n : Nat} (hle : width front ≤ n) :
    width front ≤ width (divideFloor (front ++ back) n).1 := by
  induction front generalizing n with
  | nil => exact Nat.zero_le _
  | cons c rest ih =>
      simp only [width] at hle ⊢
      have hfirst : c.utf8Size ≤ n := by omega
      have hrest := ih (show width rest ≤ n - c.utf8Size by omega)
      simp only [List.cons_append, divideFloor, if_pos hfirst, width]
      omega

theorem lastBoundary_divideFloor (text : String) (offset : Nat) :
    LastBoundary text offset (width (divideFloor text.toList offset).1) where
  isBoundary := by
    refine isBoundary_iff.2 ⟨String.ofList (divideFloor text.toList offset).1,
      String.ofList (divideFloor text.toList offset).2, ?_, utf8ByteSize_ofList _⟩
    rw [← String.ofList_append, divideFloor_append, String.ofList_toList]
  le_min := by
    have hparts := congrArg width (divideFloor_append text.toList offset)
    rw [width_append, width_toList] at hparts
    exact Nat.le_min.2 ⟨width_divideFloor_le _ _, by omega⟩
  is_last other hother hle := by
    obtain ⟨front, back, rfl, rfl⟩ := isBoundary_iff.1 hother
    rw [String.toList_append, ← width_toList]
    rw [← width_toList] at hle
    exact width_le_width_divideFloor (Nat.le_min.1 hle).1

/-- At a boundary, the last boundary is this one. -/
theorem LastBoundary.eq_of_isBoundary {boundary : Nat} (h : LastBoundary text caret boundary)
    (hcaret : Text.isBoundary text caret = true) : boundary = caret := by
  have hle := h.is_last caret hcaret (Nat.le_min.2 ⟨Nat.le_refl _, le_size_of_isBoundary hcaret⟩)
  exact Nat.le_antisymm (Nat.le_min.1 h.le_min).1 hle

/-! ### The characters of an identifier -/

/-- From the end of the first piece on, the run goes to the end of the second. -/
theorem runEnd_append (front run : String) (hrun : ∀ c ∈ run.toList, continues c = true)
    (hrest : ∀ c, rest.toList.head? = some c → continues c = false) :
    runEnd continues (front ++ run ++ rest) front.utf8ByteSize =
      Offset.wrap (front ++ run).utf8ByteSize := by
  have hparts : divideFloor (front ++ run ++ rest).toList front.utf8ByteSize =
      (front.toList, run.toList ++ rest.toList) := by
    rw [String.toList_append, String.toList_append, List.append_assoc, ← width_toList,
      divideFloor_width]
  have hstop : rest.toList.takeWhile continues = [] := by
    rcases hchars : rest.toList with _ | ⟨c, others⟩
    · rfl
    · rw [hchars] at hrest
      exact List.takeWhile_cons_of_neg (by rw [hrest c rfl]; exact Bool.false_ne_true)
  simp only [runEnd, hparts]
  rw [List.takeWhile_append_of_pos hrun, hstop, List.append_nil, width_toList, width_toList,
    String.utf8ByteSize_append]

/-- A caret parts the text in three: what is before the last boundary up to it, the accepted
characters from there on, and the rest, which does not start with one. -/
theorem exists_run (continues : Char → Bool) (text : String) (caret : Nat) :
    ∃ front run rest : String, text = front ++ run ++ rest ∧
      LastBoundary text caret front.utf8ByteSize ∧
      runEnd continues text caret = Offset.wrap (front ++ run).utf8ByteSize ∧
      (∀ c ∈ run.toList, continues c = true) ∧
      ∀ c, rest.toList.head? = some c → continues c = false := by
  have hlast := lastBoundary_divideFloor text caret
  have hparts := divideFloor_append text.toList caret
  rcases hdivide : divideFloor text.toList caret with ⟨front, back⟩
  rw [hdivide] at hlast hparts
  refine ⟨String.ofList front, String.ofList (back.takeWhile continues),
    String.ofList (back.dropWhile continues), ?_, ?_, ?_, ?_, ?_⟩
  · rw [String.append_assoc, ← String.ofList_append, List.takeWhile_append_dropWhile,
      ← String.ofList_append, hparts, String.ofList_toList]
  · rw [utf8ByteSize_ofList]
    exact hlast
  · rw [← String.ofList_append, utf8ByteSize_ofList, width_append]
    simp only [runEnd, hdivide]
  · rw [String.toList_ofList]
    exact fun c hc => List.mem_takeWhile_imp hc
  · intro c hc
    have hnot := List.head?_dropWhile_not continues back
    rw [String.toList_ofList] at hc
    rw [hc] at hnot
    exact hnot

/-- In a text within the limit, the run ends where the second piece does. -/
theorem wrap_size_of_prefix {front run : String} (htext : text = front ++ run ++ rest)
    (hfits : text.utf8ByteSize ≤ Offset.limit) :
    Offset.wrap (front ++ run).utf8ByteSize = (front ++ run).utf8ByteSize := by
  have hsize : text.utf8ByteSize = (front ++ run).utf8ByteSize + rest.utf8ByteSize := by
    rw [htext, String.utf8ByteSize_append]
  exact Offset.wrap_of_le (by omega)

/-- The end of a run is a boundary, and the end of the run at this boundary. -/
theorem isBoundary_runEnd (continues : Char → Bool) (hfits : text.utf8ByteSize ≤ Offset.limit)
    (caret : Nat) :
    isBoundary text (runEnd continues text caret) = true ∧
      runEnd continues text (runEnd continues text caret) = runEnd continues text caret := by
  obtain ⟨front, run, rest, htext, -, hend, -, hrest⟩ := exists_run continues text caret
  have hsize := wrap_size_of_prefix htext hfits
  rw [hend, hsize]
  constructor
  · exact isBoundary_iff.2 ⟨front ++ run, rest, htext, rfl⟩
  · have hagain := runEnd_append (front ++ run) "" (by simp) hrest
    rw [String.append_empty, ← htext, hsize] at hagain
    exact hagain

/-! ### Texts that do not fit into 32 bits -/

theorem width_replicate (count : Nat) (c : Char) :
    width (List.replicate count c) = count * c.utf8Size := by
  induction count with
  | zero => exact (Nat.zero_mul _).symm
  | succ count ih => rw [List.replicate_succ, width, ih, Nat.succ_mul, Nat.add_comm]

/-- In a text of one repeated letter, a caret at a letter has the end of the text for an answer, as
far as 32 bits hold it. -/
theorem identifierEnd_replicate {count : Nat} (hle : caret ≤ count) :
    isBoundary (String.ofList (List.replicate count 'a')) caret = true ∧
      identifierEnd (String.ofList (List.replicate count 'a')) caret = Offset.wrap count := by
  have hsize : ∀ n, (String.ofList (List.replicate n 'a')).utf8ByteSize = n := by
    intro n
    rw [utf8ByteSize_ofList, width_replicate]
    exact Nat.mul_one n
  have hsplit : String.ofList (List.replicate count 'a') =
      String.ofList (List.replicate caret 'a') ++
        String.ofList (List.replicate (count - caret) 'a') := by
    rw [← String.ofList_append, List.replicate_append_replicate, Nat.add_sub_cancel' hle]
  have hletters : ∀ c ∈ (String.ofList (List.replicate (count - caret) 'a')).toList,
      continuesIdentifier c = true := by
    intro c hc
    rw [String.toList_ofList] at hc
    rw [List.eq_of_mem_replicate hc]
    exact continuesIdentifier_of_isAlphanum rfl
  have hrest : ∀ c, "".toList.head? = some c → continuesIdentifier c = false := by
    intro c hc
    cases hc
  constructor
  · exact isBoundary_iff.2 ⟨_, _, hsplit, hsize caret⟩
  · have hend := runEnd_append (String.ofList (List.replicate caret 'a')) _ hletters hrest
    rw [String.append_empty, ← hsplit, hsize, hsize] at hend
    exact hend

/-- In a text of `2 ^ 32 + 5` letters, the identifier at a caret behind ten of them ends at the last
letter, but the answer is before the caret. -/
theorem identifierEnd_lt_caret :
    LastBoundary (String.ofList (List.replicate 4294967301 'a')) 10 10 ∧
      identifierEnd (String.ofList (List.replicate 4294967301 'a')) 10 = 5 ∧
      ¬ 10 ≤ identifierEnd (String.ofList (List.replicate 4294967301 'a')) 10 := by
  obtain ⟨hboundary, hend⟩ :=
    identifierEnd_replicate (show 10 ≤ 4294967301 from Nat.le_of_ble_eq_true rfl)
  have hlast := lastBoundary_divideFloor (String.ofList (List.replicate 4294967301 'a')) 10
  rw [hlast.eq_of_isBoundary hboundary] at hlast
  have hfive : identifierEnd (String.ofList (List.replicate 4294967301 'a')) 10 = 5 :=
    hend.trans (by decide)
  refine ⟨hlast, hfive, ?_⟩
  rw [hfive]
  decide

end Retrace.Text
