import Hydration.Text.ZeroWidth

/-!
# Text/Ligature — letters shown as one

In some scripts two letters in a row are shown as one sign: Arabic lam and alef, Hebrew alef and
lamed, Khmer consonants below one another, Tifinagh double consonants, Lisu tones, a Buginese and an
Old Turkic pair. Texts are measured from their end, so a ligature is met at its last letter, and
waits for the ones before it.

Ignorable marks do not break a ligature, nor do joiners outside Arabic.
-/

namespace Hydration.Text

/-- The zero width joiner. -/
def joiner : Char := '\u200d'

/-- **The end of a possible ligature**: what its letters so far wait for. -/
inductive Ligature where
  /-- An Arabic alef waits for a lam. -/
  | alef
  /-- A Hebrew lamed waits for a joiner, then for an alef. -/
  | lamed (joined : Bool)
  /-- A Khmer consonant waits for the sign that puts it below the one before. -/
  | subjoinable
  /-- A Buginese ya waits for a joiner, then for the vowel i. -/
  | ya (joined : Bool)
  /-- Buginese i and ya wait for an a. -/
  | iYa
  /-- A Tifinagh consonant waits for either joiner, then for another consonant. -/
  | consonant (joined : Bool)
  /-- A Tifinagh consonant joined by the joiner of its script waits for another. -/
  | linkedConsonant
  /-- A Lisu tone waits for another. -/
  | tone
  /-- An Old Turkic i waits for a joiner, then for an ec. -/
  | orkhonI (joined : Bool)
deriving DecidableEq, Repr

namespace Ligature

/-- The ligature with a joiner before it. -/
def afterJoiner : Ligature → Ligature
  | lamed _ => lamed true
  | ya _ => ya true
  | consonant _ => consonant true
  | orkhonI _ => orkhonI true
  | other => other

/-- The letters of the joining group lam. -/
def isLam (c : Char) : Bool :=
  inRanges [(0x0644, 0x0644), (0x06B5, 0x06B8), (0x076A, 0x076A), (0x08A6, 0x08A6),
    (0x08C7, 0x08C7)] c.toNat

/-- The letters of the joining group alef. -/
def isAlef (c : Char) : Bool :=
  inRanges [(0x0622, 0x0623), (0x0625, 0x0625), (0x0627, 0x0627), (0x0671, 0x0673),
    (0x0675, 0x0675), (0x0773, 0x0774), (0x0870, 0x0882)] c.toNat

/-- The Khmer letters with a form below the line. -/
def isSubjoinable (c : Char) : Bool :=
  inRanges [(0x1780, 0x1782), (0x1784, 0x1787), (0x1789, 0x178C), (0x178E, 0x1793),
    (0x1795, 0x1798), (0x179B, 0x179D), (0x17A0, 0x17A0), (0x17A2, 0x17A2), (0x17A7, 0x17A7),
    (0x17AB, 0x17AC), (0x17AF, 0x17AF)] c.toNat

/-- The Tifinagh consonants. -/
def isConsonant (c : Char) : Bool :=
  inRanges [(0x2D31, 0x2D65), (0x2D6F, 0x2D6F)] c.toNat

/-- **The ligatures that can end with a letter.** -/
def ofChar? (c : Char) : Option Ligature :=
  if isAlef c then some alef
  else if c = '\u05dc' then some (lamed false)
  else if isSubjoinable c then some subjoinable
  else if c = '\u1a10' then some (ya false)
  else if isConsonant c then some (consonant false)
  else if c = '\ua4fc' ∨ c = '\ua4fd' then some tone
  else if c.toNat = 0x10C03 then some (orkhonI false)
  else none

/-- The columns a letter adds to the ligature it completes or goes on with, and the ligature as it
then stands; `none` if it does not fit. The whole of a ligature takes the columns of one letter, so
a letter that completes it may take back what was counted before. -/
def fit? (c : Char) : Ligature → Option (Int × Option Ligature)
  | alef =>
    if isLam c then some (0, none)
    else if isTransparent c then some (0, some alef)
    else none
  | lamed true => if c = '\u05d0' then some (0, none) else none
  | subjoinable => if c = '\u17d2' then some (-1, none) else none
  | ya true => if c = '\u1a17' then some (0, some iYa) else none
  | iYa => if c = '\u1a15' then some (0, none) else none
  | consonant joined =>
    if c = '\u2d7f' then some (1, some linkedConsonant)
    else if joined ∧ isConsonant c then some (0, none)
    else none
  | linkedConsonant => if isConsonant c then some (-1, none) else none
  | tone => if '\ua4f8' ≤ c ∧ c ≤ '\ua4fb' then some (0, none) else none
  | orkhonI true => if c.toNat = 0x10C32 then some (0, none) else none
  | _ => none

/-- **How a character goes on with a ligature behind it.** -/
def extend? (c : Char) (l : Ligature) : Option (Int × Option Ligature) :=
  if l = alef then l.fit? c
  else if c = joiner then some (0, some l.afterJoiner)
  else if isIgnorableMark c then some (0, some l)
  else l.fit? c

end Ligature

end Hydration.Text
