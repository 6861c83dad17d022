import Mathlib.Data.List.TakeWhile
import Retrace.Proofs.Text.LineFeeds

/-!
# Between offsets and positions

What is kept of a text is a table: where each line starts, in ascending order, and where the text
ends (`Sound`).  An offset has the line of the last start that is not behind it.  A position has the
start of its line and a column that may not pass the end of the line.  Both answers come to the same
condition on the table: line, start and stop belong together, and the offset is the start and the
column (`locate_eq_iff`, `offset?_eq_some_iff`).  So each direction undoes the other, for every
sound table (`Sound.offset?_eq_some_iff_position?`).

For the table of a text, the rows between the line feeds say how long each line is
(`exists_extent?_eq`), and counting bytes says which position an offset has (`position?_eq_scan`).

The same table can be read by index instead, with a look-up for each number and a calculation that
may break off (`lookUpOffset`, `lookUpPosition`).  In a sound table no entry is missing and no
calculation breaks off.
-/

namespace Retrace

/-- The bytes of the lines of a text, without the line feeds. -/
def Text.rows (text : String) : List (List UInt8) := (Text.bytes text).splitOn lineFeed

/-- The offset `count` bytes before `offset`, if the text has so many bytes before it. -/
def Offset.retreat (offset count : Nat) : Checked Offset :=
  if count ≤ offset then .ok (offset - count) else .error .reversed

theorem Offset.retreat_of_le {offset count : Nat} (h : count ≤ offset) :
    Offset.retreat offset count = .ok (offset - count) := if_pos h

namespace Lines

variable {lines : Lines} {position : Position} {text : String} {later : List Nat}
  {offset start length number first stop point : Nat}

/-! ### The table of line starts -/

/-- The table of line starts, with that of the first line. -/
def starts (lines : Lines) : List Offset := 0 :: lines.laterStarts

/-- Every line starts behind the one before it, and none behind the end. -/
structure Sound (lines : Lines) : Prop where
  ascending : lines.starts.Pairwise (· < ·)
  within : ∀ start ∈ lines.starts, start ≤ lines.length

theorem sound_ofText (text : String) : (ofText text).Sound where
  ascending := by
    rw [starts, laterStarts_ofText]
    exact pairwise_startsBehind 0 (Text.bytes text)
  within := by
    intro start hstart
    rw [starts, laterStarts_ofText] at hstart
    rcases List.mem_cons.1 hstart with rfl | hlater
    · exact Nat.zero_le _
    · have hbounds := (bounds_of_mem_startsBehind hlater).2
      rw [Text.length_bytes, Nat.zero_add] at hbounds
      exact hbounds

theorem Sound.pos_of_mem (h : lines.Sound) (hmem : start ∈ lines.laterStarts) : 1 ≤ start :=
  (List.pairwise_cons.1 h.ascending).1 start hmem

/-! ### Start and stop of a line -/

@[simp] theorem extent?_nil_zero : extent? length start [] 0 = some (start, length) := rfl

@[simp] theorem extent?_cons_zero (next : Nat) :
    extent? length start (next :: later) 0 = some (start, next - 1) := rfl

/-- Where a line stops, for its number: at the byte before the start of the next line, and the last
line with the whole. -/
def stopOf (length : Nat) (later : List Offset) (number : Nat) : Offset :=
  match later[number]? with
  | none => length
  | some next => next - 1

theorem extent?_eq (length start : Nat) (later : List Nat) (number : Nat) :
    extent? length start later number =
      ((start :: later)[number]?).map fun first => (first, stopOf length later number) := by
  induction later generalizing start number with
  | nil =>
      rcases number with _ | number
      · rfl
      · rfl
  | cons next rest ih =>
      rcases number with _ | number
      · rfl
      · exact ih next number

theorem start_le_of_extent? (hascending : (start :: later).Pairwise (· < ·))
    (h : extent? length start later number = some (first, stop)) : start ≤ first := by
  rw [extent?_eq] at h
  obtain ⟨found, hfound, heq⟩ := Option.map_eq_some_iff.1 h
  cases heq
  rcases List.mem_cons.1 (List.mem_of_getElem? hfound) with heq | hlater
  · exact Nat.le_of_eq heq.symm
  · exact Nat.le_of_lt ((List.pairwise_cons.1 hascending).1 first hlater)

theorem Sound.stopOf_le (h : lines.Sound) (number : Nat) :
    stopOf lines.length lines.laterStarts number ≤ lines.length := by
  unfold stopOf
  split
  · exact Nat.le_refl _
  · next next hnext =>
      have hmem : next ∈ lines.starts := List.mem_cons_of_mem 0 (List.mem_of_getElem? hnext)
      exact Nat.le_trans (Nat.sub_le next 1) (h.within next hmem)

theorem Sound.stop_le (h : lines.Sound)
    (hextent : extent? lines.length 0 lines.laterStarts number = some (first, stop)) :
    stop ≤ lines.length := by
  rw [extent?_eq] at hextent
  obtain ⟨found, -, heq⟩ := Option.map_eq_some_iff.1 hextent
  cases heq
  exact h.stopOf_le number

/-! ### The two directions -/

theorem locate_cons_of_le {next : Nat} (h : next ≤ offset) (line : Nat) :
    locate offset line start (next :: later) = locate offset (line + 1) next later := if_pos h

theorem locate_cons_of_lt {next : Nat} (h : offset < next) (line : Nat) :
    locate offset line start (next :: later) = ⟨line, offset - start⟩ := if_neg (Nat.not_le.2 h)

/-- The line of an offset is the one whose start and stop enclose it. -/
theorem locate_eq_iff (hascending : (start :: later).Pairwise (· < ·)) (hstart : start ≤ offset)
    (hlength : offset ≤ length) (line : Nat) :
    locate offset line start later = position ↔
      ∃ number first stop : Nat, extent? length start later number = some (first, stop) ∧
        position.line = line + number ∧ first + position.column = offset ∧ offset ≤ stop := by
  obtain ⟨found, column⟩ := position
  induction later generalizing start line with
  | nil =>
      simp only [locate, Position.mk.injEq]
      constructor
      · rintro ⟨rfl, rfl⟩
        exact ⟨0, start, length, rfl, rfl, Nat.add_sub_cancel' hstart, hlength⟩
      · rintro ⟨_ | number, first, stop, hextent, hline, hsum, -⟩
        · simp only [extent?_nil_zero, Option.some.injEq, Prod.mk.injEq] at hextent
          omega
        · cases hextent
  | cons next rest ih =>
      obtain ⟨hfirst, hrest⟩ := List.pairwise_cons.1 hascending
      rcases Nat.lt_or_ge offset next with hlt | hle
      · rw [locate_cons_of_lt hlt]
        simp only [Position.mk.injEq]
        constructor
        · rintro ⟨rfl, rfl⟩
          exact ⟨0, start, next - 1, rfl, rfl, Nat.add_sub_cancel' hstart, Nat.le_sub_one_of_lt hlt⟩
        · rintro ⟨_ | number, first, stop, hextent, hline, hsum, -⟩
          · simp only [extent?_cons_zero, Option.some.injEq, Prod.mk.injEq] at hextent
            omega
          · -- every later line starts behind the offset
            have hbehind : next ≤ first := start_le_of_extent? hrest hextent
            exact absurd (Nat.le_trans hbehind (hsum ▸ Nat.le_add_right first column))
              (Nat.not_le.2 hlt)
      · rw [locate_cons_of_le hle, ih hrest hle]
        constructor
        · rintro ⟨number, first, stop, hextent, hline, hsum, hstop⟩
          exact ⟨number + 1, first, stop, hextent, by omega, hsum, hstop⟩
        · rintro ⟨_ | number, first, stop, hextent, hline, hsum, hstop⟩
          · -- the line before the next start does not reach up to the offset
            simp only [extent?_cons_zero, Option.some.injEq, Prod.mk.injEq] at hextent
            have hnext : start < next := hfirst next List.mem_cons_self
            omega
          · exact ⟨number, first, stop, hextent, by omega, hsum, hstop⟩

theorem Sound.position?_eq_some_iff (h : lines.Sound) :
    lines.position? offset = some position ↔ offset ≤ lines.length ∧ ∃ first stop : Nat,
      extent? lines.length 0 lines.laterStarts position.line = some (first, stop) ∧
        first + position.column = offset ∧ offset ≤ stop := by
  rw [position?]
  split
  · next hle =>
      rw [Option.some.injEq, locate_eq_iff h.ascending (Nat.zero_le offset) hle]
      constructor
      · rintro ⟨number, first, stop, hextent, hline, hsum, hstop⟩
        rw [Nat.zero_add] at hline
        exact ⟨hle, first, stop, hline ▸ hextent, hsum, hstop⟩
      · rintro ⟨-, first, stop, hextent, hsum, hstop⟩
        exact ⟨position.line, first, stop, hextent, (Nat.zero_add _).symm, hsum, hstop⟩
  · next hlt => simp [hlt]

theorem offset?_eq_some_iff :
    lines.offset? position = some offset ↔ ∃ first stop : Nat,
      extent? lines.length 0 lines.laterStarts position.line = some (first, stop) ∧
        first + position.column = offset ∧ offset ≤ stop ∧ offset ≤ Offset.limit := by
  unfold offset?
  rcases extent? lines.length 0 lines.laterStarts position.line with _ | ⟨first, stop⟩
  · simp
  · simp only [Option.some.injEq, Prod.mk.injEq, Offset.advance]
    by_cases hroom : first + position.column ≤ Offset.limit
    · simp only [if_pos hroom]
      split
      · next hle =>
          simp only [Option.some.injEq]
          constructor
          · rintro rfl
            exact ⟨first, stop, ⟨rfl, rfl⟩, rfl, hle, hroom⟩
          · rintro ⟨_, _, ⟨rfl, rfl⟩, hsum, -, -⟩
            exact hsum
      · next hlt =>
          simp only [reduceCtorEq, false_iff]
          rintro ⟨_, _, ⟨rfl, rfl⟩, rfl, hle, -⟩
          exact hlt hle
    · simp only [if_neg hroom, reduceCtorEq, false_iff]
      rintro ⟨_, _, ⟨rfl, rfl⟩, rfl, -, hle⟩
      exact hroom hle

/-- In a sound table within the limit, each direction undoes the other. -/
theorem Sound.offset?_eq_some_iff_position? (h : lines.Sound)
    (hfits : lines.length ≤ Offset.limit) :
    lines.offset? position = some offset ↔ lines.position? offset = some position := by
  rw [offset?_eq_some_iff, h.position?_eq_some_iff]
  constructor
  · rintro ⟨first, stop, hextent, hsum, hstop, -⟩
    exact ⟨Nat.le_trans hstop (h.stop_le hextent), first, stop, hextent, hsum, hstop⟩
  · rintro ⟨hle, first, stop, hextent, hsum, hstop⟩
    exact ⟨first, stop, hextent, hsum, hstop, Nat.le_trans hle hfits⟩

/-! ### The lines of a text -/

/-- A line is as long as its row, and it starts somewhere. -/
theorem exists_extent?_eq (start number : Nat) (bytes : List UInt8) :
    ∃ first : Nat, extent? (start + bytes.length) start (startsBehind start bytes) number =
      ((bytes.splitOn lineFeed)[number]?).map fun row => (first, first + row.length) := by
  induction number generalizing start bytes with
  | zero =>
      refine ⟨start, ?_⟩
      by_cases hmem : lineFeed ∈ bytes
      · obtain ⟨row, rest, rfl, hrow⟩ := List.eq_append_cons_of_mem hmem
        rw [startsBehind_line hrow, List.splitOn_append_cons_self_of_not_mem hrow]
        rfl
      · rw [startsBehind_of_not_mem hmem, List.splitOn_eq_singleton hmem]
        rfl
  | succ number ih =>
      by_cases hmem : lineFeed ∈ bytes
      · obtain ⟨row, rest, rfl, hrow⟩ := List.eq_append_cons_of_mem hmem
        have hlength : start + (row ++ lineFeed :: rest).length =
            start + row.length + 1 + rest.length := by
          rw [List.length_append, List.length_cons]
          omega
        rw [startsBehind_line hrow, List.splitOn_append_cons_self_of_not_mem hrow, hlength]
        exact ih (start + row.length + 1) rest
      · rw [startsBehind_of_not_mem hmem, List.splitOn_eq_singleton hmem]
        exact ⟨start, rfl⟩

/-- There are as many rows as lines. -/
theorem length_rows (text : String) : (Text.rows text).length = (ofText text).count := by
  rw [count_ofText, Text.rows]
  induction Text.bytes text with
  | nil => rfl
  | cons byte rest ih =>
      rw [List.splitOn_cons_eq_if_modifyHead, List.count_cons]
      split
      · rw [List.length_cons, ih]
      · rw [List.length_modifyHead, ih, Nat.add_zero]

/-- A position is in a text where its column is within the row of its line. -/
theorem isSome_offset?_iff (hfits : text.utf8ByteSize ≤ Offset.limit) :
    ((ofText text).offset? position).isSome ↔
      ∃ row, (Text.rows text)[position.line]? = some row ∧ position.column ≤ row.length := by
  obtain ⟨first, hextent⟩ := exists_extent?_eq 0 position.line (Text.bytes text)
  rw [Text.length_bytes, Nat.zero_add, ← laterStarts_ofText] at hextent
  rw [Option.isSome_iff_exists]
  simp only [offset?_eq_some_iff]
  constructor
  · rintro ⟨offset, found, stop, hfound, hsum, hstop, -⟩
    obtain ⟨row, hrow, heq⟩ := Option.map_eq_some_iff.1 (hextent.symm.trans hfound)
    cases heq
    exact ⟨row, hrow, Nat.le_of_add_le_add_left (hsum ▸ hstop)⟩
  · rintro ⟨row, hrow, hcolumn⟩
    rw [← Text.rows, hrow, Option.map_some] at hextent
    have hstop : first + row.length ≤ text.utf8ByteSize := (sound_ofText text).stop_le hextent
    have hsum : first + position.column ≤ first + row.length := Nat.add_le_add_left hcolumn first
    exact ⟨first + position.column, first, first + row.length, hextent, rfl, hsum,
      Nat.le_trans hsum (Nat.le_trans hstop hfits)⟩

/-! ### Reading the table by index -/

/-- Where a line stops, with a calculation that breaks off when the next line starts at 0. -/
def lookUpStop (lines : Lines) (number : Nat) : Checked Offset :=
  match lines.starts[number + 1]? with
  | none => .ok lines.length
  | some next => Offset.retreat next 1

theorem Sound.lookUpStop_eq (h : lines.Sound) (number : Nat) :
    lines.lookUpStop number = .ok (stopOf lines.length lines.laterStarts number) := by
  unfold lookUpStop stopOf
  rw [starts, List.getElem?_cons_succ]
  split
  · rfl
  · next next hnext => exact Offset.retreat_of_le (h.pos_of_mem (List.mem_of_getElem? hnext))

/-- The offset of a position, read off the table: one look-up for the start of the line and one for
the start of the next, which has to leave room for the line feed before it. -/
def lookUpOffset (lines : Lines) (position : Position) : Checked (Option Offset) :=
  match lines.starts[position.line]? with
  | none => .ok none
  | some start =>
      match lines.lookUpStop position.line with
      | .error fault => .error fault
      | .ok stop =>
          match Offset.advance start position.column with
          | .error _ => .ok none
          | .ok offset => .ok (if offset ≤ stop then some offset else none)

/-- At a sound table, no look-up leads to a calculation that breaks off. -/
theorem Sound.lookUpOffset_eq (h : lines.Sound) (position : Position) :
    lines.lookUpOffset position = .ok (lines.offset? position) := by
  unfold lookUpOffset offset?
  rw [extent?_eq, h.lookUpStop_eq]
  rw [← starts]
  rcases lines.starts[position.line]? with _ | start
  · rfl
  · simp only [Option.map_some]
    rcases Offset.advance start position.column with fault | offset
    · rfl
    · rfl

/-- The point up to which the ascending entries of a table do not pass an offset. -/
def PartsAt (table : List Offset) (offset point : Nat) : Prop :=
  point ≤ table.length ∧
    ∀ number start : Nat, table[number]? = some start → (start ≤ offset ↔ number < point)

theorem exists_partsAt {table : List Nat} (hascending : table.Pairwise (· < ·)) (offset : Nat) :
    ∃ point, PartsAt table offset point := by
  induction table with
  | nil => exact ⟨0, Nat.le_refl 0, fun number start hstart => by cases hstart⟩
  | cons next rest ih =>
      obtain ⟨hfirst, hrest⟩ := List.pairwise_cons.1 hascending
      rcases Nat.lt_or_ge offset next with hlt | hle
      · -- all entries behind the first one that passes the offset pass it as well
        refine ⟨0, Nat.zero_le _, fun number start hstart => ?_⟩
        have hnext : next ≤ start := by
          rcases List.mem_cons.1 (List.mem_of_getElem? hstart) with rfl | hmem
          · exact Nat.le_refl start
          · exact Nat.le_of_lt (hfirst start hmem)
        omega
      · obtain ⟨point, hpoint, hparts⟩ := ih hrest
        refine ⟨point + 1, Nat.succ_le_succ hpoint, ?_⟩
        rintro (_ | number) start hstart
        · cases hstart
          simp [hle]
        · rw [hparts number start hstart]
          omega

/-- The position of an offset, read off the table before a partition point.  There is no answer if
the table has no such entry. -/
def lookUpPosition (lines : Lines) (offset point : Nat) : Option (Checked Position) :=
  (lines.starts[point - 1]?).map fun start =>
    (Offset.retreat offset start).map fun column => ⟨point - 1, column⟩

/-- The first line starts at 0, so there is an entry before every partition point. -/
theorem Sound.exists_lookUpPosition_eq (h : lines.Sound) (hle : offset ≤ lines.length)
    (hparts : PartsAt lines.starts offset point) :
    ∃ position, lines.position? offset = some position ∧
      lines.lookUpPosition offset point = some (.ok position) := by
  obtain ⟨hpoint, hparts⟩ := hparts
  have hpos : 0 < point := (hparts 0 0 rfl).1 (Nat.zero_le offset)
  have hentry : point - 1 < lines.starts.length := by omega
  obtain ⟨start, hstart⟩ : ∃ start : Nat, lines.starts[point - 1]? = some start :=
    ⟨_, List.getElem?_eq_getElem hentry⟩
  have hbefore : start ≤ offset := (hparts _ start hstart).2 (Nat.sub_lt hpos Nat.one_pos)
  refine ⟨⟨point - 1, offset - start⟩, ?_, ?_⟩
  · rw [h.position?_eq_some_iff]
    refine ⟨hle, start, stopOf lines.length lines.laterStarts (point - 1), ?_,
      Nat.add_sub_cancel' hbefore, ?_⟩
    · rw [extent?_eq, ← starts, hstart, Option.map_some]
    · unfold stopOf
      split
      · exact hle
      · next next hnext =>
          -- the entry at the partition point is the first one behind the offset
          have hbehind : ¬ next ≤ offset :=
            mt (hparts (point - 1 + 1) next hnext).1
              (Nat.not_lt.2 (Nat.le_add_of_sub_le (Nat.le_refl _)))
          exact Nat.le_sub_one_of_lt (Nat.lt_of_not_le hbehind)
  · rw [lookUpPosition, hstart, Option.map_some, Offset.retreat_of_le hbefore]
    rfl

/-! ### Offsets and positions of a text -/

theorem isSome_position?_iff :
    ((ofText text).position? offset).isSome ↔ offset ≤ text.utf8ByteSize := by
  unfold position?
  split
  · next hle => exact iff_of_true rfl hle
  · next hlt => exact iff_of_false Bool.false_ne_true hlt

/-- More bytes are counted up to a later offset. -/
theorem position?_lt {earlier : Nat} {before : Position} (hlt : earlier < offset)
    (hearlier : (ofText text).position? earlier = some before)
    (hoffset : (ofText text).position? offset = some position) : before < position := by
  have hle : offset ≤ text.utf8ByteSize := isSome_position?_iff.1 (Option.isSome_of_mem hoffset)
  rw [position?_ofText hle, Option.some.injEq] at hoffset
  rw [position?_ofText (Nat.le_trans (Nat.le_of_lt hlt) hle), Option.some.injEq] at hearlier
  -- the bytes up to the later offset are those up to the earlier one and some more
  have hmore : ((Text.bytes text).drop earlier).take (offset - earlier) ≠ [] := by
    apply List.ne_nil_of_length_pos
    rw [List.length_take, List.length_drop, Text.length_bytes]
    omega
  rw [← hearlier, ← hoffset, ← Nat.add_sub_cancel' (Nat.le_of_lt hlt), List.take_add,
    List.foldl_append]
  exact Position.lt_foldl_past hmore _

theorem position?_lt_iff {first second : Nat} {before after : Position}
    (hfirst : (ofText text).position? first = some before)
    (hsecond : (ofText text).position? second = some after) : first < second ↔ before < after := by
  constructor
  · intro hlt
    exact position?_lt hlt hfirst hsecond
  · intro hlt
    rcases Nat.lt_trichotomy first second with hbefore | rfl | hbehind
    · exact hbefore
    · cases hfirst.symm.trans hsecond
      exact absurd hlt (Position.lt_asymm hlt)
    · exact absurd hlt (Position.lt_asymm (position?_lt hbehind hsecond hfirst))

/-- **Offsets and positions of a text are two names for the same places, in the same order.**  The
offsets up to the end have a position, and the positions within a line have an offset.  From one to
the other and back leads to the start, and of two offsets the smaller one has the smaller position.
Reading an offset off the table breaks off for no line and no column. -/
theorem offsets_mirror_positions {text : String} (hfits : text.utf8ByteSize ≤ Offset.limit) :
    (∀ offset : Nat, ((ofText text).position? offset).isSome ↔ offset ≤ text.utf8ByteSize) ∧
      (∀ position, ((ofText text).offset? position).isSome ↔
        position.line < (ofText text).count ∧
          ∃ row, (Text.rows text)[position.line]? = some row ∧ position.column ≤ row.length) ∧
      (∀ offset : Nat, offset ≤ text.utf8ByteSize →
        ((ofText text).position? offset).bind (ofText text).offset? = some offset) ∧
      (∀ position, ((ofText text).offset? position).isSome →
        ((ofText text).offset? position).bind (ofText text).position? = some position) ∧
      (∀ (first second : Nat) (before after : Position),
        (ofText text).position? first = some before →
          (ofText text).position? second = some after → (first < second ↔ before < after)) ∧
      ∀ position, (ofText text).lookUpOffset position = .ok ((ofText text).offset? position) := by
  have hinverse : ∀ (offset : Nat) (position : Position),
      (ofText text).offset? position = some offset ↔
        (ofText text).position? offset = some position :=
    fun _ _ => (sound_ofText text).offset?_eq_some_iff_position? hfits
  refine ⟨fun _ => isSome_position?_iff, fun position => ?_, fun offset hle => ?_,
    fun position hsome => ?_, fun _ _ _ _ => position?_lt_iff, (sound_ofText text).lookUpOffset_eq⟩
  · rw [isSome_offset?_iff hfits, iff_and_self]
    rintro ⟨row, hrow, -⟩
    rw [← length_rows]
    exact (List.getElem?_eq_some_iff.1 hrow).1
  · obtain ⟨position, hposition⟩ := Option.isSome_iff_exists.1 (isSome_position?_iff.2 hle)
    rw [hposition, Option.bind_some]
    exact (hinverse offset position).2 hposition
  · obtain ⟨offset, hoffset⟩ := Option.isSome_iff_exists.1 hsome
    rw [hoffset, Option.bind_some]
    exact (hinverse offset position).1 hoffset

/-- Offsets on a line feed, behind the last one and inside a character of two bytes, and a column as
far out as columns go. -/
theorem offsets_mirror_positions_of_four_lines :
    "ab\n\né\n".utf8ByteSize ≤ Offset.limit ∧
      ((ofText "ab\n\né\n").position? 3).bind (ofText "ab\n\né\n").offset? = some 3 ∧
      ((ofText "ab\n\né\n").position? 7).bind (ofText "ab\n\né\n").offset? = some 7 ∧
      ((ofText "ab\n\né\n").offset? ⟨2, 1⟩).bind (ofText "ab\n\né\n").position? = some ⟨2, 1⟩ ∧
      (ofText "ab\n\né\n").lookUpOffset ⟨1, 4294967295⟩ = .ok none := by
  have hfits : "ab\n\né\n".utf8ByteSize ≤ Offset.limit := by decide
  obtain ⟨-, -, hoffset, hposition, -, hlookUp⟩ := offsets_mirror_positions hfits
  exact ⟨hfits, hoffset 3 (by decide), hoffset 7 (by decide), hposition ⟨2, 1⟩ (by decide),
    (hlookUp ⟨1, 4294967295⟩).trans (by decide)⟩

/-! ### Counting line feeds -/

/-- The position of an offset, counted in the bytes before it: the line feeds among them, and the
bytes behind the last line feed. -/
def scan (text : String) (offset : Nat) : Position where
  line := ((Text.bytes text).take offset).count lineFeed
  column := (((Text.bytes text).take offset).reverse.takeWhile (· != lineFeed)).length

/-- Before the first line feed, the column is the offset. -/
theorem scan_column_of_not_mem (hle : offset ≤ text.utf8ByteSize)
    (h : lineFeed ∉ (Text.bytes text).take offset) : (scan text offset).column = offset := by
  have hall : ∀ byte ∈ ((Text.bytes text).take offset).reverse, (byte != lineFeed) = true := by
    intro byte hbyte
    rw [List.mem_reverse] at hbyte
    exact bne_iff_ne.2 (fun heq => h (heq ▸ hbyte))
  unfold scan
  rw [List.takeWhile_eq_self_iff.2 hall, List.length_reverse, List.length_take,
    Text.length_bytes, Nat.min_eq_left hle]

theorem position?_eq_scan (hle : offset ≤ text.utf8ByteSize) :
    (ofText text).position? offset = some (scan text offset) := by
  rw [position?_ofText hle, Position.foldl_past]
  rfl

/-- **The position of an offset is what counting line feeds says.**  The line is the number of line
feeds before the offset, and the column the number of bytes behind the last of them, so it is the
offset itself where there is none.  A text has one line more than line feeds.  The table has a
partition point for the offset, and before each such point an entry that gives this position.  All
numbers are within the limit. -/
theorem position_counts_line_feeds {text : String} {offset : Nat}
    (hfits : text.utf8ByteSize ≤ Offset.limit) (hle : offset ≤ text.utf8ByteSize) :
    (ofText text).position? offset = some (scan text offset) ∧
      (lineFeed ∉ (Text.bytes text).take offset → (scan text offset).column = offset) ∧
      (ofText text).count = (Text.bytes text).count lineFeed + 1 ∧
      (∃ point, PartsAt (ofText text).starts offset point) ∧
      (∀ point, PartsAt (ofText text).starts offset point →
        (ofText text).lookUpPosition offset point = some (.ok (scan text offset))) ∧
      (scan text offset).line ≤ Offset.limit ∧
      ∀ start ∈ (ofText text).starts, start ≤ Offset.limit := by
  have hsound : (ofText text).Sound := sound_ofText text
  refine ⟨position?_eq_scan hle, scan_column_of_not_mem hle, count_ofText text,
    exists_partsAt hsound.ascending offset, fun point hparts => ?_, ?_, fun start hstart => ?_⟩
  · obtain ⟨position, hposition, hlookUp⟩ := hsound.exists_lookUpPosition_eq hle hparts
    rw [position?_eq_scan hle, Option.some.injEq] at hposition
    rw [hlookUp, hposition]
  · calc (scan text offset).line
      _ ≤ ((Text.bytes text).take offset).length := List.count_le_length
      _ ≤ offset := List.length_take_le offset (Text.bytes text)
      _ ≤ Offset.limit := Nat.le_trans hle hfits
  · exact Nat.le_trans (hsound.within start hstart) hfits

/-- Inside a character of two bytes, behind an empty line. -/
theorem position_counts_line_feeds_inside_character :
    "a\n\né\n".utf8ByteSize ≤ Offset.limit ∧ 4 ≤ "a\n\né\n".utf8ByteSize ∧
      (ofText "a\n\né\n").position? 4 = some ⟨2, 1⟩ ∧
      (ofText "a\n\né\n").lookUpPosition 4 3 = some (.ok ⟨2, 1⟩) ∧
      (ofText "a\n\né\n").count = 4 := by
  have hfits : "a\n\né\n".utf8ByteSize ≤ Offset.limit := by decide
  have hle : 4 ≤ "a\n\né\n".utf8ByteSize := by decide
  obtain ⟨hposition, -, hcount, -, hlookUp, -, -⟩ := position_counts_line_feeds hfits hle
  have hscan : scan "a\n\né\n" 4 = ⟨2, 1⟩ := by decide
  have hparts : PartsAt (ofText "a\n\né\n").starts 4 3 := by
    have hstarts : (ofText "a\n\né\n").starts = [0, 2, 3, 6] := by decide
    rw [hstarts]
    refine ⟨by decide, ?_⟩
    rintro (_ | _ | _ | _ | number) start hstart
    all_goals cases hstart
    all_goals decide
  rw [hscan] at hposition hlookUp
  exact ⟨hfits, hle, hposition, hlookUp 3 hparts, hcount⟩

end Lines

end Retrace
