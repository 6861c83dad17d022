import Retrace.Text.Offset

/-!
# Cutting a text at byte offsets

A text is a string of characters, and offsets count the bytes of its UTF-8 form.
A text can be cut at an offset only where no character is split.  Cutting is
defined on the list of characters, so that each function is a plain recursion:
`divide` cuts exactly at an offset or not at all, and `divideFloor` cuts at the
last place that is not behind it.

The main statement is `divide_eq_some_iff`: a list of characters divides at `n`
bytes into `before` and `after` exactly if it is `before ++ after` and `before` is
`n` bytes wide.
-/

namespace Retrace.Text

def width : List Char → Nat
  | [] => 0
  | c :: rest => c.utf8Size + width rest

/-- The UTF-8 bytes of a text. -/
def bytes (text : String) : List UInt8 := text.toList.flatMap String.utf8EncodeChar

/-- Cut a list of characters behind its first `n` bytes, unless that splits a
    character or there are fewer. -/
def divide : List Char → Nat → Option (List Char × List Char)
  | chars, 0 => some ([], chars)
  | [], _ + 1 => none
  | c :: rest, n + 1 =>
      if c.utf8Size ≤ n + 1 then
        (divide rest (n + 1 - c.utf8Size)).map fun parts => (c :: parts.1, parts.2)
      else none

/-- Cut a list of characters at the last place that has at most `n` bytes before it. -/
def divideFloor : List Char → Nat → List Char × List Char
  | [], _ => ([], [])
  | c :: rest, n =>
      if c.utf8Size ≤ n then
        let parts := divideFloor rest (n - c.utf8Size)
        (c :: parts.1, parts.2)
      else ([], c :: rest)

/-- Whether an offset is at an end of the text or between two characters. -/
def isBoundary (text : String) (offset : Nat) : Bool :=
  (divide text.toList offset).isSome

/-- A text in three parts. -/
structure Cut where
  before : String
  inside : String
  after : String
  deriving DecidableEq, Repr

/-- The text with another middle part. -/
def Cut.replace (cut : Cut) (inside : String) : String := cut.before ++ inside ++ cut.after

/-- Why a text cannot be cut along a span. -/
inductive Misfit
  /-- The span stops behind the end of the text. -/
  | beyondEnd
  /-- An end of the span is inside a character. -/
  | insideCharacter (offset : Nat)
  deriving DecidableEq, Repr

/-- Cut a text along a span.  The length is looked at before the two ends, and the
    start before the stop. -/
def cut (text : String) (span : Span) : Except Misfit Cut :=
  if text.utf8ByteSize < span.stop then .error .beyondEnd
  else
    match divide text.toList span.start with
    | none => .error (.insideCharacter span.start)
    | some (before, rest) =>
        match divide rest span.length with
        | none => .error (.insideCharacter span.stop)
        | some (inside, after) =>
            .ok ⟨String.ofList before, String.ofList inside, String.ofList after⟩

/-! ### Widths -/

@[simp] theorem width_append (front back : List Char) :
    width (front ++ back) = width front + width back := by
  induction front with
  | nil => simp [width]
  | cons c rest ih => simp [width, ih, Nat.add_assoc]

theorem utf8ByteSize_ofList (chars : List Char) :
    (String.ofList chars).utf8ByteSize = width chars := by
  induction chars with
  | nil => simp [width]
  | cons c rest ih => simp [String.ofList_cons, width, ih]

theorem width_toList (text : String) : width text.toList = text.utf8ByteSize := by
  rw [← utf8ByteSize_ofList, String.ofList_toList]

theorem length_bytes (text : String) : (bytes text).length = text.utf8ByteSize := by
  rw [← width_toList, bytes]
  induction text.toList with
  | nil => rfl
  | cons c rest ih => simp [width, ih]

/-! ### Where a text divides -/

theorem divide_width (front back : List Char) :
    divide (front ++ back) (width front) = some (front, back) := by
  induction front with
  | nil => cases back <;> simp [width, divide]
  | cons c rest ih =>
      have hpos : 0 < c.utf8Size := c.utf8Size_pos
      obtain ⟨n, hn⟩ : ∃ n, width (c :: rest) = n + 1 :=
        ⟨width (c :: rest) - 1, by simp only [width]; omega⟩
      have hsub : n + 1 - c.utf8Size = width rest := by simp only [width] at hn; omega
      have hle : c.utf8Size ≤ n + 1 := by simp only [width] at hn; omega
      rw [hn, List.cons_append, divide, if_pos hle, hsub, ih]
      rfl

theorem divide_eq_some_iff {chars front back : List Char} {n : Nat} :
    divide chars n = some (front, back) ↔ chars = front ++ back ∧ width front = n := by
  constructor
  · intro h
    induction chars generalizing n front back with
    | nil =>
        cases n with
        | zero =>
            simp only [divide, Option.some.injEq, Prod.mk.injEq] at h
            simp [← h.1, ← h.2, width]
        | succ n => simp [divide] at h
    | cons c rest ih =>
        cases n with
        | zero =>
            simp only [divide, Option.some.injEq, Prod.mk.injEq] at h
            simp [← h.1, ← h.2, width]
        | succ n =>
            rw [divide] at h
            split at h
            · next hle =>
                obtain ⟨parts, hparts, heq⟩ := Option.map_eq_some_iff.1 h
                obtain ⟨hrest, hwidth⟩ := @ih parts.1 parts.2 _ hparts
                simp only [Prod.mk.injEq] at heq
                obtain ⟨rfl, rfl⟩ := heq
                refine ⟨by rw [List.cons_append, ← hrest], ?_⟩
                simp only [width, hwidth]
                omega
            · simp at h
  · rintro ⟨rfl, rfl⟩
    exact divide_width front back

theorem divideFloor_append (chars : List Char) (n : Nat) :
    (divideFloor chars n).1 ++ (divideFloor chars n).2 = chars := by
  induction chars generalizing n with
  | nil => rfl
  | cons c rest ih =>
      simp only [divideFloor]
      split
      · simp [ih]
      · rfl

theorem width_divideFloor_le (chars : List Char) (n : Nat) :
    width (divideFloor chars n).1 ≤ n := by
  induction chars generalizing n with
  | nil => simp [divideFloor, width]
  | cons c rest ih =>
      simp only [divideFloor]
      split
      · have := ih (n - c.utf8Size)
        simp only [width]
        omega
      · simp [width]

end Retrace.Text
