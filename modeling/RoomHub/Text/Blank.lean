/-!
# Blank text

The characters with the Unicode property `White_Space`, and what it means for a text to
be blank or trimmed. Core's `Char.isWhitespace` knows six ASCII characters only; names
and origins may hold any character, so the whole property is listed here.
-/

namespace RoomHub.Text

/-- The ranges of code points with the property `White_Space`, first and last. -/
def blankRanges : List (Nat × Nat) :=
  [(0x09, 0x0D), (0x20, 0x20), (0x85, 0x85), (0xA0, 0xA0), (0x1680, 0x1680),
   (0x2000, 0x200A), (0x2028, 0x2029), (0x202F, 0x202F), (0x205F, 0x205F), (0x3000, 0x3000)]

/-- Whether a character has the property `White_Space`. -/
def isBlankChar (c : Char) : Bool :=
  blankRanges.any fun r => r.1 ≤ c.toNat && c.toNat ≤ r.2

/-- A text is blank when it holds nothing but blank characters. -/
def isBlank (s : String) : Bool := s.toList.all isBlankChar

/-- The text without the blank characters at either end. -/
def trim (s : String) : String :=
  String.ofList
    ((s.toList.dropWhile isBlankChar).reverse.dropWhile isBlankChar).reverse

/-- Every character that core calls whitespace is blank. -/
theorem isBlankChar_of_isWhitespace {c : Char} (h : c.isWhitespace) : isBlankChar c := by
  simp only [Char.isWhitespace, Bool.or_eq_true, decide_eq_true_eq] at h
  rcases h with ((h | h) | h) | h <;> subst h <;> decide

end RoomHub.Text
