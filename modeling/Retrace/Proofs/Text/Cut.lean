import Retrace.Text.Cut

/-!
# Texts in pieces

A cut says that a text is three pieces one after the other, and a boundary says that
it is two.  `cut_eq_ok_iff` and `isBoundary_iff` state both with concatenation and
byte sizes alone, so that no later proof follows the recursion over characters.

Two pieces of one text that start together overlap in the shorter of them
(`exists_append_of_size_le`).  That is what carries a boundary from one text to another
text with the same front or the same back, and why two boundaries in order are all that a
cut needs (`exists_cut_iff`).
-/

namespace Retrace.Text

theorem width_eq_zero_iff {chars : List Char} : width chars = 0 ↔ chars = [] := by
  cases chars with
  | nil => simp [width]
  | cons c rest =>
      have hpos := c.utf8Size_pos
      simp only [width, reduceCtorEq, iff_false]
      omega

/-- Of two ways to part a text in two, the one with the shorter front parts the front of
the other. -/
theorem exists_append_of_size_le {front back front' back' : String}
    (heq : front ++ back = front' ++ back')
    (hle : front.utf8ByteSize ≤ front'.utf8ByteSize) :
    ∃ middle, front' = front ++ middle ∧ back = middle ++ back' := by
  have hlist : front.toList ++ back.toList = front'.toList ++ back'.toList := by
    rw [← String.toList_append, ← String.toList_append, heq]
  rcases List.append_eq_append_iff.1 hlist with ⟨chars, hfront, hback⟩ | ⟨chars, hfront, hback⟩
  · refine ⟨String.ofList chars, ?_, ?_⟩
    · rw [← String.toList_inj, String.toList_append, String.toList_ofList, hfront]
    · rw [← String.toList_inj, String.toList_append, String.toList_ofList, hback]
  · -- the other order of the fronts leaves nothing between them
    have hwidth : front.utf8ByteSize = front'.utf8ByteSize + width chars := by
      rw [← width_toList, ← width_toList front', hfront, width_append]
    have hchars : chars = [] := width_eq_zero_iff.1 (by omega)
    subst hchars
    refine ⟨"", ?_, ?_⟩
    · rw [← String.toList_inj, String.toList_append, hfront]
      simp
    · rw [← String.toList_inj, String.toList_append, hback]
      simp

/-! ### Cuts -/

theorem divide_ofList {text : String} {front back : List Char} {n : Nat} :
    divide text.toList n = some (front, back) ↔
      text = String.ofList front ++ String.ofList back ∧
        (String.ofList front).utf8ByteSize = n := by
  rw [divide_eq_some_iff, utf8ByteSize_ofList, ← String.toList_inj, String.toList_append,
    String.toList_ofList, String.toList_ofList]

/-- A span cuts a text into exactly the three pieces that make up the text and whose sizes
fit the span. -/
theorem cut_eq_ok_iff {text : String} {span : Span} {parts : Cut} :
    cut text span = .ok parts ↔
      text = parts.before ++ parts.inside ++ parts.after ∧
        parts.before.utf8ByteSize = span.start ∧
        (parts.before ++ parts.inside).utf8ByteSize = span.stop := by
  obtain ⟨start, stop, hle⟩ := span
  constructor
  · intro h
    unfold cut at h
    split at h
    · simp at h
    · split at h
      · simp at h
      · next before rest hstart =>
          split at h
          · simp at h
          · next inside after hstop =>
              obtain ⟨htext, hbefore⟩ := divide_ofList.1 hstart
              obtain ⟨hrest, hinside⟩ := divide_eq_some_iff.1 hstop
              simp only [Except.ok.injEq] at h
              subst h
              refine ⟨?_, hbefore, ?_⟩
              · rw [htext, hrest, String.ofList_append, String.append_assoc]
              · rw [String.utf8ByteSize_append, hbefore, utf8ByteSize_ofList, hinside]
                simp only [Span.length]
                omega
  · rintro ⟨htext, hbefore, hinside⟩
    obtain ⟨before, inside, after⟩ := parts
    simp only [String.utf8ByteSize_append] at htext hbefore hinside
    have hsize : ¬ text.utf8ByteSize < stop := by
      rw [htext, String.utf8ByteSize_append, String.utf8ByteSize_append]
      omega
    have hstart : divide text.toList start =
        some (before.toList, inside.toList ++ after.toList) := by
      refine divide_eq_some_iff.2 ⟨?_, ?_⟩
      · rw [htext, String.toList_append, String.toList_append, List.append_assoc]
      · rw [width_toList, hbefore]
    have hstop : divide (inside.toList ++ after.toList) (stop - start) =
        some (inside.toList, after.toList) :=
      divide_eq_some_iff.2 ⟨rfl, by rw [width_toList]; omega⟩
    simp only [cut, if_neg hsize, hstart, Span.length, hstop, String.ofList_toList]

/-! ### Boundaries -/

theorem isBoundary_iff {text : String} {offset : Nat} :
    isBoundary text offset = true ↔
      ∃ front back, text = front ++ back ∧ front.utf8ByteSize = offset := by
  unfold isBoundary
  constructor
  · intro h
    obtain ⟨⟨front, back⟩, hdivide⟩ := Option.isSome_iff_exists.1 h
    exact ⟨_, _, divide_ofList.1 hdivide⟩
  · rintro ⟨front, back, htext, hfront⟩
    refine Option.isSome_iff_exists.2 ⟨(front.toList, back.toList), ?_⟩
    rw [divide_ofList, String.ofList_toList, String.ofList_toList]
    exact ⟨htext, hfront⟩

theorem le_size_of_isBoundary {text : String} {offset : Nat}
    (h : isBoundary text offset = true) : offset ≤ text.utf8ByteSize := by
  obtain ⟨front, back, rfl, rfl⟩ := isBoundary_iff.1 h
  rw [String.utf8ByteSize_append]
  omega

/-- The boundaries of a text up to the end of its front are those of the front. -/
theorem isBoundary_append_iff {front back : String} {offset : Nat}
    (hle : offset ≤ front.utf8ByteSize) :
    isBoundary (front ++ back) offset = true ↔ isBoundary front offset = true := by
  constructor
  · intro h
    obtain ⟨before, after, htext, rfl⟩ := isBoundary_iff.1 h
    obtain ⟨middle, hfront, -⟩ := exists_append_of_size_le htext.symm hle
    exact isBoundary_iff.2 ⟨before, middle, hfront, rfl⟩
  · intro h
    obtain ⟨before, after, rfl, rfl⟩ := isBoundary_iff.1 h
    exact isBoundary_iff.2 ⟨before, after ++ back, String.append_assoc, rfl⟩

/-- The boundaries of a text behind its front are those of the back, moved by the size of
the front. -/
theorem isBoundary_append_add_iff {front back : String} {offset : Nat} :
    isBoundary (front ++ back) (front.utf8ByteSize + offset) = true ↔
      isBoundary back offset = true := by
  constructor
  · intro h
    obtain ⟨before, after, htext, hsize⟩ := isBoundary_iff.1 h
    obtain ⟨middle, hbefore, hback⟩ :=
      exists_append_of_size_le htext (by rw [hsize]; omega)
    rw [hbefore, String.utf8ByteSize_append] at hsize
    exact isBoundary_iff.2 ⟨middle, after, hback, by omega⟩
  · intro h
    obtain ⟨before, after, rfl, rfl⟩ := isBoundary_iff.1 h
    refine isBoundary_iff.2 ⟨front ++ before, after, ?_, ?_⟩
    · rw [String.append_assoc]
    · rw [String.utf8ByteSize_append]

/-! ### Which spans cut a text -/

/-- Two boundaries in order cut a text in three. -/
theorem exists_cut_iff {text : String} {span : Span} :
    (∃ parts, cut text span = .ok parts) ↔
      isBoundary text span.start = true ∧ isBoundary text span.stop = true := by
  constructor
  · rintro ⟨parts, hcut⟩
    obtain ⟨htext, hstart, hstop⟩ := cut_eq_ok_iff.1 hcut
    constructor
    · apply isBoundary_iff.2
      exact ⟨parts.before, parts.inside ++ parts.after, by rw [htext, String.append_assoc], hstart⟩
    · apply isBoundary_iff.2
      exact ⟨parts.before ++ parts.inside, parts.after, htext, hstop⟩
  · rintro ⟨hstart, hstop⟩
    obtain ⟨before, rest, hbefore, hsize⟩ := isBoundary_iff.1 hstart
    obtain ⟨front, after, hfront, hsize'⟩ := isBoundary_iff.1 hstop
    have hle : before.utf8ByteSize ≤ front.utf8ByteSize := by
      rw [hsize, hsize']
      exact span.start_le_stop
    obtain ⟨inside, rfl, -⟩ := exists_append_of_size_le (hbefore.symm.trans hfront) hle
    exact ⟨⟨before, inside, after⟩, cut_eq_ok_iff.2 ⟨hfront, hsize, hsize'⟩⟩

theorem cut_of_beyond {text : String} {span : Span} (h : text.utf8ByteSize < span.stop) :
    cut text span = .error .beyondEnd := by
  rw [cut, if_pos h]

theorem cut_of_start_inside {text : String} {span : Span} (hle : span.stop ≤ text.utf8ByteSize)
    (h : isBoundary text span.start = false) :
    cut text span = .error (.insideCharacter span.start) := by
  have hnone : divide text.toList span.start = none := Option.isNone_iff_eq_none.1 (by
    rw [← Option.not_isSome, Bool.not_eq_true']
    exact h)
  rw [cut, if_neg (Nat.not_lt.2 hle), hnone]

/-- Of two ends inside characters, the start is named. -/
theorem cut_of_stop_inside {text : String} {span : Span} (hle : span.stop ≤ text.utf8ByteSize)
    (hstart : isBoundary text span.start = true) (hstop : isBoundary text span.stop = false) :
    cut text span = .error (.insideCharacter span.stop) := by
  rcases hcut : cut text span with misfit | parts
  · unfold isBoundary at hstart
    obtain ⟨⟨before, rest⟩, hdivide⟩ := Option.isSome_iff_exists.1 hstart
    rw [cut, if_neg (Nat.not_lt.2 hle), hdivide] at hcut
    simp only at hcut
    split at hcut
    · exact hcut.symm
    · cases hcut
  · rw [(exists_cut_iff.1 ⟨parts, hcut⟩).2] at hstop
    cases hstop

/-! ### Bytes -/

theorem bytes_append (front back : String) :
    bytes (front ++ back) = bytes front ++ bytes back := by
  simp [bytes, String.toList_append]

/-- Texts with a common front have the same bytes in it. -/
theorem take_bytes_append {front back : String} {n : Nat} (hle : n ≤ front.utf8ByteSize) :
    (bytes (front ++ back)).take n = (bytes front).take n := by
  rw [bytes_append, List.take_append_of_le_length (by rw [length_bytes]; exact hle)]

/-- Texts with a common back have the same bytes in it. -/
theorem drop_bytes_append {front back : String} {n : Nat} :
    (bytes (front ++ back)).drop (front.utf8ByteSize + n) = (bytes back).drop n := by
  rw [bytes_append, ← length_bytes front, List.drop_length_add_append]

end Retrace.Text
