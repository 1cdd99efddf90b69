import Hydration.Text.Range

/-!
# Text/Wide — characters that take two columns

The characters of East Asian width W or F in Unicode 15.1: ideographs, syllables and fullwidth
forms. Emoji are in `Text/Emoji`.
-/

namespace Hydration.Text

/-- The ranges of the wide characters, emoji apart. -/
def wideRanges : List (Nat × Nat) := [
  (0x1100, 0x115F), (0x2329, 0x232A), (0x2E80, 0x2E99), (0x2E9B, 0x2EF3), (0x2F00, 0x2FD5),
  (0x2FF0, 0x303E), (0x3041, 0x3096), (0x3099, 0x30FF), (0x3105, 0x312F), (0x3131, 0x318E),
  (0x3190, 0x31E3), (0x31EF, 0x321E), (0x3220, 0x3247), (0x3250, 0x4DBF), (0x4E00, 0xA48C),
  (0xA490, 0xA4C6), (0xA960, 0xA97C), (0xAC00, 0xD7A3), (0xF900, 0xFAFF), (0xFE10, 0xFE19),
  (0xFE30, 0xFE52), (0xFE54, 0xFE66), (0xFE68, 0xFE6B), (0xFF01, 0xFF60), (0xFFE0, 0xFFE6),
  (0x16FE0, 0x16FE4), (0x16FF0, 0x16FF1), (0x17000, 0x187F7), (0x18800, 0x18CD5),
  (0x18D00, 0x18D08), (0x1AFF0, 0x1AFF3), (0x1AFF5, 0x1AFFB), (0x1AFFD, 0x1AFFE),
  (0x1B000, 0x1B122), (0x1B132, 0x1B132), (0x1B150, 0x1B152), (0x1B155, 0x1B155),
  (0x1B164, 0x1B167), (0x1B170, 0x1B2FB), (0x1F200, 0x1F200), (0x1F202, 0x1F202),
  (0x1F210, 0x1F219), (0x1F21B, 0x1F22E), (0x1F230, 0x1F231), (0x1F237, 0x1F237),
  (0x1F23B, 0x1F23B), (0x1F240, 0x1F248), (0x1F260, 0x1F265), (0x1F3FB, 0x1F3FF),
  (0x20000, 0x2FFFD), (0x30000, 0x3FFFD)]

/-- **The character takes two columns.** -/
def isWide (c : Char) : Bool := inRanges wideRanges c.toNat

end Hydration.Text
