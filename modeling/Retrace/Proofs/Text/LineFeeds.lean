import Retrace.Proofs.Text.Cut
import Retrace.Text.Lines

/-!
# Line feeds in the bytes of a text

The lines of a text are found by going through its characters, and offsets count bytes, also those
inside a character.  A line feed is one byte, and no other character has this byte in it
(`lineFeed_not_mem`).  So the table of line starts can be made from the bytes as well
(`startsFrom_eq`), and then what is asked about an offset is asked about the bytes before it.

The plain way to know a position is to count: `Position.past` says what one byte does to it.
Following the line starts up to an offset comes to the same (`locate_startsBehind`).
-/

namespace Retrace

/-- The byte of a line feed. -/
def lineFeed : UInt8 := 10

theorem utf8EncodeChar_newline : String.utf8EncodeChar '\n' = [lineFeed] := by decide

/-- All bytes of a character of more than one byte have the highest bit. -/
theorem le_of_mem_utf8EncodeChar {c : Char} (hwide : ¬ c.val.toNat ≤ 127) :
    ∀ byte ∈ String.utf8EncodeChar c, 128 ≤ byte.toNat := by
  unfold String.utf8EncodeChar
  simp only [if_neg hwide]
  split
  · simp only [List.forall_mem_cons, UInt8.toNat_ofNat']
    exact ⟨by omega, by omega, by simp⟩
  · split
    · simp only [List.forall_mem_cons, UInt8.toNat_ofNat']
      exact ⟨by omega, by omega, by omega, by simp⟩
    · simp only [List.forall_mem_cons, UInt8.toNat_ofNat']
      exact ⟨by omega, by omega, by omega, by omega, by simp⟩

theorem lineFeed_not_mem {c : Char} (h : c ≠ '\n') : lineFeed ∉ String.utf8EncodeChar c := by
  intro hmem
  by_cases hascii : c.val.toNat ≤ 127
  · apply h
    simp only [String.utf8EncodeChar, if_pos hascii, List.mem_singleton] at hmem
    have hbyte : (UInt8.ofNat c.val.toNat).toNat = 10 := congrArg UInt8.toNat hmem.symm
    rw [UInt8.toNat_ofNat', Nat.mod_eq_of_lt (by omega)] at hbyte
    exact Char.ext (UInt32.toNat_inj.1 hbyte)
  · exact absurd (le_of_mem_utf8EncodeChar hascii lineFeed hmem) (by decide)

namespace Lines

/-- The offsets behind the line feeds of some bytes, the first of which is at `offset`. -/
def startsBehind (offset : Nat) : List UInt8 → List Offset
  | [] => []
  | byte :: rest =>
      if byte = lineFeed then (offset + 1) :: startsBehind (offset + 1) rest
      else startsBehind (offset + 1) rest

theorem startsBehind_append (offset : Nat) (front back : List UInt8) :
    startsBehind offset (front ++ back) =
      startsBehind offset front ++ startsBehind (offset + front.length) back := by
  induction front generalizing offset with
  | nil => rfl
  | cons byte rest ih =>
      have hoffset : offset + 1 + rest.length = offset + (rest.length + 1) := by omega
      simp only [List.cons_append, startsBehind, ih, List.length_cons, hoffset]
      split
      · rfl
      · rfl

theorem startsBehind_of_not_mem {offset : Nat} {bytes : List UInt8} (h : lineFeed ∉ bytes) :
    startsBehind offset bytes = [] := by
  induction bytes generalizing offset with
  | nil => rfl
  | cons byte rest ih =>
      rw [List.mem_cons, not_or] at h
      rw [startsBehind, if_neg (fun heq => h.1 heq.symm), ih h.2]

/-- Up to the first line feed there is one line, and the next one starts behind it. -/
theorem startsBehind_line {offset : Nat} {row rest : List UInt8} (h : lineFeed ∉ row) :
    startsBehind offset (row ++ lineFeed :: rest) =
      (offset + row.length + 1) :: startsBehind (offset + row.length + 1) rest := by
  rw [startsBehind_append, startsBehind_of_not_mem h, startsBehind, if_pos rfl, List.nil_append]

/-- The line starts of a text are those of its bytes. -/
theorem startsFrom_eq (offset : Nat) (chars : List Char) :
    startsFrom offset chars = startsBehind offset (chars.flatMap String.utf8EncodeChar) := by
  induction chars generalizing offset with
  | nil => rfl
  | cons c rest ih =>
      rw [List.flatMap_cons, startsBehind_append, String.length_utf8EncodeChar, ← ih]
      simp only [startsFrom]
      split
      · next hnewline =>
          rw [hnewline, utf8EncodeChar_newline]
          rfl
      · next hother => rw [startsBehind_of_not_mem (lineFeed_not_mem hother), List.nil_append]

theorem laterStarts_ofText (text : String) :
    (ofText text).laterStarts = startsBehind 0 (Text.bytes text) :=
  startsFrom_eq 0 text.toList

theorem length_startsBehind (offset : Nat) (bytes : List UInt8) :
    (startsBehind offset bytes).length = bytes.count lineFeed := by
  induction bytes generalizing offset with
  | nil => rfl
  | cons byte rest ih =>
      rw [startsBehind, List.count_cons]
      split
      · next heq => simp [ih, heq]
      · next hne => simp [ih, hne]

theorem count_ofText (text : String) :
    (ofText text).count = (Text.bytes text).count lineFeed + 1 := by
  rw [count, laterStarts_ofText, length_startsBehind]

/-- A line start is behind its line feed, and the line feed is among the bytes. -/
theorem bounds_of_mem_startsBehind {offset start : Nat} {bytes : List UInt8}
    (h : start ∈ startsBehind offset bytes) :
    offset < start ∧ start ≤ offset + bytes.length := by
  induction bytes generalizing offset with
  | nil => cases h
  | cons byte rest ih =>
      rw [List.length_cons]
      rw [startsBehind] at h
      split at h
      · rcases List.mem_cons.1 h with rfl | hrest
        · omega
        · have := ih hrest
          omega
      · have := ih h
        omega

theorem pairwise_startsBehind (offset : Nat) (bytes : List UInt8) :
    (offset :: startsBehind offset bytes).Pairwise (· < ·) := by
  induction bytes generalizing offset with
  | nil => exact List.pairwise_singleton _ _
  | cons byte rest ih =>
      rw [List.pairwise_cons]
      constructor
      · intro start hstart
        exact (bounds_of_mem_startsBehind hstart).1
      · rw [startsBehind]
        split
        · exact ih (offset + 1)
        · exact (List.pairwise_cons.1 (ih (offset + 1))).2

end Lines

/-! ### Counting bytes -/

namespace Position

variable {p q r : Position}

theorem lt_iff : p < q ↔ p.line < q.line ∨ p.line = q.line ∧ p.column < q.column := Iff.rfl

theorem lt_trans (hpq : p < q) (hqr : q < r) : p < r := by
  rw [lt_iff] at hpq hqr ⊢
  omega

theorem lt_asymm (h : p < q) : ¬ q < p := by
  rw [lt_iff] at h ⊢
  omega

/-- The position behind a byte, for the position before it. -/
def past (position : Position) (byte : UInt8) : Position :=
  if byte = lineFeed then ⟨position.line + 1, 0⟩ else ⟨position.line, position.column + 1⟩

theorem lt_past (position : Position) (byte : UInt8) : position < position.past byte := by
  unfold past
  split
  · exact Or.inl (Nat.lt_succ_self _)
  · exact Or.inr ⟨rfl, Nat.lt_succ_self _⟩

/-- Going past some bytes leads to a later position. -/
theorem lt_foldl_past {bytes : List UInt8} (hne : bytes ≠ []) (position : Position) :
    position < bytes.foldl past position := by
  induction bytes generalizing position with
  | nil => exact absurd rfl hne
  | cons byte rest ih =>
      rw [List.foldl_cons]
      by_cases hrest : rest = []
      · rw [hrest]
        exact lt_past position byte
      · exact lt_trans (lt_past position byte) (ih hrest (position.past byte))

/-- Each line feed begins a line, and the column counts what is behind the last of them.  The bytes
are listed from the last one back to the first. -/
theorem foldr_past (bytes : List UInt8) :
    bytes.foldr (fun byte (reached : Position) => reached.past byte) ⟨0, 0⟩ =
      ⟨bytes.count lineFeed, (bytes.takeWhile (· != lineFeed)).length⟩ := by
  induction bytes with
  | nil => rfl
  | cons byte earlier ih =>
      rw [List.foldr_cons, ih, past]
      split
      · next heq => simp [heq]
      · next hne => simp [hne]

/-- Going past some bytes leads down by as many lines as there are line feeds among them. -/
theorem line_foldl_past (bytes : List UInt8) (position : Position) :
    (bytes.foldl past position).line = position.line + bytes.count lineFeed := by
  induction bytes generalizing position with
  | nil => rfl
  | cons byte rest ih =>
      rw [List.foldl_cons, ih, List.count_cons, past]
      split
      · next heq =>
          simp only [heq, beq_self_eq_true, if_true]
          omega
      · next hne => simp [hne]

/-- Behind a line feed the column is the same, wherever the first of the bytes was. -/
theorem column_foldl_past {bytes : List UInt8} (h : lineFeed ∈ bytes ∨ p.column = q.column) :
    (bytes.foldl past p).column = (bytes.foldl past q).column := by
  induction bytes generalizing p q with
  | nil => exact h.resolve_left List.not_mem_nil
  | cons byte rest ih =>
      rw [List.foldl_cons, List.foldl_cons]
      apply ih
      by_cases heq : byte = lineFeed
      · right
        simp only [past, if_pos heq]
      · rcases h with hmem | hcolumn
        · exact Or.inl ((List.mem_cons.1 hmem).resolve_left (Ne.symm heq))
        · right
          simp only [past, if_neg heq, hcolumn]

theorem foldl_past (bytes : List UInt8) :
    bytes.foldl past ⟨0, 0⟩ =
      ⟨bytes.count lineFeed, (bytes.reverse.takeWhile (· != lineFeed)).length⟩ := by
  rw [List.foldl_eq_foldr_reverse, foldr_past, List.count_reverse]

end Position

namespace Lines

theorem locate_of_forall_lt {offset : Nat} {later : List Offset}
    (h : ∀ next ∈ later, offset < next) (line start : Nat) :
    locate offset line start later = ⟨line, offset - start⟩ := by
  cases later with
  | nil => rfl
  | cons next rest => rw [locate, if_neg (Nat.not_le.2 (h next List.mem_cons_self))]

/-- Following the line starts up to an offset is counting the bytes before it. -/
theorem locate_startsBehind {offset start count : Nat} {bytes : List UInt8}
    (hstart : start ≤ offset) (hcount : count ≤ bytes.length) (line : Nat) :
    locate (offset + count) line start (startsBehind offset bytes) =
      (bytes.take count).foldl Position.past ⟨line, offset - start⟩ := by
  induction bytes generalizing offset start count line with
  | nil =>
      cases Nat.le_zero.1 hcount
      rfl
  | cons byte rest ih =>
      rcases count with _ | count
      · exact locate_of_forall_lt (fun next hnext => (bounds_of_mem_startsBehind hnext).1)
          line start
      · have hrest : count ≤ rest.length := Nat.le_of_succ_le_succ hcount
        have hoffset : offset + (count + 1) = offset + 1 + count := by omega
        rw [List.take_succ_cons, List.foldl_cons, startsBehind, Position.past, hoffset]
        split
        · rw [locate, if_pos (Nat.le_add_right _ _), ih (Nat.le_refl _) hrest, Nat.sub_self]
        · have hbehind : offset + 1 - start = offset - start + 1 := Nat.sub_add_comm hstart
          rw [ih (Nat.le_succ_of_le hstart) hrest, hbehind]

/-- The position of an offset is counted byte by byte. -/
theorem position?_ofText {text : String} {offset : Nat} (hle : offset ≤ text.utf8ByteSize) :
    (ofText text).position? offset =
      some (((Text.bytes text).take offset).foldl Position.past ⟨0, 0⟩) := by
  have hbytes : offset ≤ (Text.bytes text).length := by
    rw [Text.length_bytes]
    exact hle
  have hlocate := locate_startsBehind (Nat.le_refl 0) hbytes 0
  rw [Nat.zero_add] at hlocate
  have hlength : offset ≤ (ofText text).length := hle
  rw [position?, if_pos hlength, laterStarts_ofText, hlocate]

end Lines

end Retrace
