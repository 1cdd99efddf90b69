import Hydration.Text.Extender
import Hydration.Text.Unprintable

/-!
# Text/Quoted — strings in double quotes

Names, keys and string operands are listed between double quotes. The quote and the backslash are
escaped by a backslash, four control characters by a letter (`\0`, `\t`, `\n`, `\r`), and every
other character that would not show as itself by its code point in hexadecimal, `\u` and braces
around it. So a quotation has no line feed, and its first unescaped quote ends it.
-/

namespace Hydration.Text

/-- The character shows as itself: it has a glyph, and does not extend the one before it. -/
def isPrintable (c : Char) : Bool :=
  if c.toNat < 0x7F then 0x20 ≤ c.toNat else !isUnprintable c && !isExtender c

/-- A code point as an escape: `\u` and its hexadecimal digits in braces. -/
def escapeCode (c : Char) : List Char :=
  '\\' :: 'u' :: '\x7b' :: Nat.toDigits 16 c.toNat ++ ['\x7d']

/-- **One character inside a quotation.** -/
def escape (c : Char) : List Char :=
  if c = '"' then ['\\', '"']
  else if c = '\\' then ['\\', '\\']
  else if c = '\x00' then ['\\', '0']
  else if c = '\t' then ['\\', 't']
  else if c = '\n' then ['\\', 'n']
  else if c = '\r' then ['\\', 'r']
  else if isPrintable c then [c]
  else escapeCode c

/-- **A text in double quotes.** -/
def quote (s : String) : List Char :=
  '"' :: s.toList.flatMap escape ++ ['"']

end Hydration.Text
