import BoxScript.Text.Utf8
import BoxScript.Text.Ranges

/-!
# Blank and control characters

The characters with the property White_Space, which are trimmed off the ends
of a typed statement, and the control, format and private characters, which a
prompt may not hold. Both are as of Unicode 17.0.
-/

set_option autoImplicit false

namespace BoxScript

/-- The characters with the property White_Space. -/
def blankRanges : Ranges :=
  [(0x9, 0xD), (0x20, 0x20), (0x85, 0x85), (0xA0, 0xA0), (0x1680, 0x1680), (0x2000, 0x200A),
   (0x2028, 0x2029), (0x202F, 0x202F), (0x205F, 0x205F), (0x3000, 0x3000)]

/-- The characters of the categories control, format and private use. -/
def controlRanges : Ranges :=
  [(0x0, 0x1F), (0x7F, 0x9F), (0xAD, 0xAD), (0x600, 0x605), (0x61C, 0x61C), (0x6DD, 0x6DD),
   (0x70F, 0x70F), (0x890, 0x891), (0x8E2, 0x8E2), (0x180E, 0x180E), (0x200B, 0x200F),
   (0x202A, 0x202E), (0x2060, 0x2064), (0x2066, 0x206F), (0xE000, 0xF8FF), (0xFEFF, 0xFEFF),
   (0xFFF9, 0xFFFB), (0x110BD, 0x110BD), (0x110CD, 0x110CD), (0x13430, 0x1343F),
   (0x1BCA0, 0x1BCA3), (0x1D173, 0x1D17A), (0xE0001, 0xE0001), (0xE0020, 0xE007F),
   (0xF0000, 0xFFFFD), (0x100000, 0x10FFFD)]

/-- Whether a piece of a text is a blank character. -/
def isBlankPiece : Utf8.Piece → Bool
  | .char c => blankRanges.has c
  | .stray _ => false

/-- A text without the blank characters at its ends. -/
def trimBlank (s : Bytes) : Bytes :=
  let core := ((Utf8.pieces s).dropWhile isBlankPiece).reverse.dropWhile isBlankPiece
  core.reverse.flatMap Utf8.Piece.bytes

/-- Whether a prompt can be shown. -/
def isPromptable (prompt : String) : Bool := prompt.toList.all fun c => !controlRanges.has c

end BoxScript
