import Retrace.Text.CodePoint
import Retrace.Text.Cut
import Retrace.Text.IdentifierRanges

/-!
# The identifier at a caret

Completion replaces the rest of the identifier that the caret is in.  Whether a
character can continue an identifier is the Unicode property `XID_Continue`; no
distinction is made between the first character of an identifier and the others,
because the caret may be in its middle.  How the end is found does not depend on the
property, which is one table of Unicode among others (`runEnd`).
-/

namespace Retrace.Text

/-- Whether a character can continue an identifier. -/
def continuesIdentifier (c : Char) : Bool := inRanges identifierRanges c

/-- Where the characters that `continues` accepts end from `caret` on.  A caret behind
    the end of the text or inside a character is first moved back to the nearest place
    where the text can be cut.  If the next character is not accepted, this place is the
    answer.  The answer is counted in 32 bits. -/
def runEnd (continues : Char → Bool) (text : String) (caret : Nat) : Offset :=
  let parts := divideFloor text.toList caret
  Offset.wrap (width parts.1 + width (parts.2.takeWhile continues))

/-- Where the identifier that runs through `caret` ends. -/
def identifierEnd (text : String) (caret : Nat) : Offset :=
  runEnd continuesIdentifier text caret

/-- The letters and the digits of ASCII continue an identifier. -/
theorem continuesIdentifier_of_isAlphanum {c : Char} (h : c.isAlphanum = true) :
    continuesIdentifier c = true := by
  have hdigit : (0x30, 0x39) ∈ identifierRanges :=
    List.mem_of_getElem? (rfl : identifierRanges[0]? = some (0x30, 0x39))
  have hupper : (0x41, 0x5A) ∈ identifierRanges :=
    List.mem_of_getElem? (rfl : identifierRanges[1]? = some (0x41, 0x5A))
  have hlower : (0x61, 0x7A) ∈ identifierRanges :=
    List.mem_of_getElem? (rfl : identifierRanges[3]? = some (0x61, 0x7A))
  rw [continuesIdentifier, inRanges_eq_true_iff]
  unfold Char.isAlphanum Char.isAlpha Char.isUpper Char.isLower Char.isDigit at h
  simp only [Bool.or_eq_true, Bool.and_eq_true, decide_eq_true_eq, UInt32.le_iff_toNat_le] at h
  rcases h with (⟨h1, h2⟩ | ⟨h1, h2⟩) | ⟨h1, h2⟩
  · exact ⟨_, hupper, h1, h2⟩
  · exact ⟨_, hlower, h1, h2⟩
  · exact ⟨_, hdigit, h1, h2⟩

end Retrace.Text
