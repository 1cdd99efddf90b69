import Hydration.Text.Emoji
import Hydration.Text.Ligature
import Hydration.Text.Wide

/-!
# Text/Width — columns a text takes on a terminal

Most characters take one column, ideographs and emoji two, combining marks and format characters
none. The rest depends on what follows: a carriage return before a line feed takes no column, a
symbol before the emoji selector U+FE0F is shown as an emoji and an emoji before the text selector
U+FE0E as a symbol, emoji with joiners between them are one emoji, and so are ligatures one letter
(`Text/Ligature`). So a text is measured from its end, each character knowing what stands behind
it.

Regional indicators make flags by pairs from the first of them. If a joiner and an emoji follow, a
complete last pair is part of that emoji: so many indicators before a joiner take as many columns
if their number is odd, and two less if it is even.
-/

namespace Hydration.Text

/-- **What stands behind a character**, as far as its width depends on it. -/
inductive Follower where
  /-- Nothing of the following. -/
  | plain
  | lineFeed
  /-- A skin tone. -/
  | skinTone
  /-- One regional indicator. -/
  | indicator
  /-- Several regional indicators. -/
  | indicators
  | emoji
  /-- A joiner with an emoji behind it. -/
  | joined
  /-- The mark of a keycap, and a joined emoji behind it. -/
  | joinedKeycap
  /-- One regional indicator, and a joined emoji behind it. -/
  | joinedIndicator
  /-- Pairs of regional indicators, and a joined emoji behind them. -/
  | joinedPairs
  /-- Three regional indicators or a greater odd number, and a joined emoji behind them. -/
  | joinedOdd
  /-- Invisible digits, then letters, then the end of the tag, and a joined emoji behind it. -/
  | joinedTag (letters digits : Nat)
  | ligature (letters : Ligature)
deriving DecidableEq, Repr

/-- **What stands behind a character, and the selectors before it.** -/
structure Behind where
  next : Follower := .plain
  emojiSelector : Bool := false
  textSelector : Bool := false
deriving DecidableEq, Repr

namespace Behind

/-- The emoji selector is put before; it is part of a joined emoji, and goes unnoticed in a
ligature. -/
def selectEmoji (b : Behind) : Behind :=
  match b.next with
  | .ligature _ | .joined | .joinedKeycap => { b with emojiSelector := true }
  | _ => { emojiSelector := true }

/-- The text selector is put before; it goes unnoticed in a ligature. -/
def selectText (b : Behind) : Behind :=
  match b.next with
  | .ligature _ => { b with textSelector := true }
  | _ => { textSelector := true }

/-- The emoji selector selects nothing. -/
def dropEmoji (b : Behind) : Behind :=
  match b.next, b.emojiSelector with
  | .ligature _, true => { b with emojiSelector := false }
  | _, true => {}
  | _, false => b

/-- The text selector selects nothing. -/
def dropText (b : Behind) : Behind :=
  match b.next, b.textSelector with
  | .ligature _, true => { b with textSelector := false }
  | _, true => {}
  | _, false => b

end Behind

namespace Follower

/-- A joiner before something that can be joined. -/
def joinedBy (c : Char) : Option (Int × Follower) :=
  if c = joiner then some (0, joined) else none

/-- **How a character goes on with what stands behind it**: the columns it adds, and what the two
are for the character before them; `none` if they are apart. -/
def extend? (c : Char) : Follower → Option (Int × Follower)
  | ligature l => (l.extend? c).map fun (width, l) => (width, l.elim plain ligature)
  | skinTone => if isTonable c then some (0, emoji) else joinedBy c
  | indicator => if isIndicator c then some (1, indicators) else none
  | indicators => if isIndicator c then some (1, indicators) else joinedBy c
  | emoji => joinedBy c
  | joined =>
    if c = '\u20e3' then some (0, joinedKeycap)
    else if isIndicator c then some (1, joinedIndicator)
    else if isTone c then some (0, skinTone)
    else if c.toNat = 0xE007F then some (0, joinedTag 0 0)
    else if isEmoji c then some (0, emoji)
    else none
  | joinedIndicator => if isIndicator c then some (-1, joinedPairs) else none
  | joinedPairs => if isIndicator c then some (3, joinedOdd) else joinedBy c
  | joinedOdd => if isIndicator c then some (-1, joinedPairs) else joinedBy c
  | joinedTag letters digits =>
    if isTagLetter c ∧ digits = 0 ∧ letters < 6 then some (0, joinedTag (letters + 1) 0)
    else if isTagDigit c ∧ letters < 5 ∧ digits < 3 then some (0, joinedTag letters (digits + 1))
    else if c.toNat = 0x1F3F4 ∧ (digits = 0 ∧ 3 ≤ letters ∨ digits = 3) then some (0, emoji)
    else none
  | _ => none

/-- **A character by itself**: its columns, and what it is for the character before it. Two signs
of Khmer are written as two and three letters. -/
def ofChar (c : Char) : Int × Follower :=
  match Ligature.ofChar? c with
  | some l => (1, ligature l)
  | none =>
    if isIndicator c then (1, indicator)
    else if isTone c then (2, skinTone)
    else if isEmoji c then (2, emoji)
    else if c = '\u17a4' then (2, plain)
    else if c = '\u17d8' then (3, plain)
    else if isZeroWidth c then (0, plain)
    else if isWide c then (2, plain)
    else (1, plain)

end Follower

/-- A character up to the no-break space, all of them narrow but for the ends of lines. -/
def narrowWidth (c : Char) (next : Follower) : Int × Behind :=
  if c = '\n' then (0, { next := .lineFeed })
  else if c = '\r' ∧ next = .lineFeed then (0, {})
  else (1, {})

/-- A character above the no-break space; the emoji selector, if any, selects nothing. -/
def broadWidth (c : Char) (b : Behind) : Int × Behind :=
  if c = '\ufe0f' then (0, b.selectEmoji)
  else if c = '\ufe0e' then (0, b.selectText)
  else if b.textSelector ∧ isNarrowable c then (1, {})
  else
    let (width, here) := (b.dropText.next.extend? c).getD (Follower.ofChar c)
    (width, { next := here })

/-- **The columns a character adds to the text behind it**, and what the two are for the character
before them. -/
def charWidth (c : Char) (b : Behind) : Int × Behind :=
  if b.emojiSelector ∧ isSelectable c then
    (if b.next = .joined ∨ b.next = .joinedKeycap then 0 else 2, { next := .emoji })
  else if c ≤ '\u00a0' then narrowWidth c b.dropEmoji.next
  else broadWidth c b.dropEmoji

/-- The columns of a text, and what it is for a character put before it. -/
def measure : List Char → Int × Behind
  | [] => (0, {})
  | c :: cs =>
    let (rest, behind) := measure cs
    let (own, here) := charWidth c behind
    (rest + own, here)

/-- **The number of columns a text takes.** -/
def width (cs : List Char) : Nat := (measure cs).1.toNat

/-! ## Numbers -/

/-- A digit takes one column and joins nothing behind it. -/
theorem charWidth_of_isDigit {c : Char} (hc : c.isDigit) : charWidth c {} = (1, {}) := by
  have hle : c ≤ '\u00a0' := by
    have hle : c.val ≤ 57 := (Bool.and_eq_true_iff.mp hc).2 |> of_decide_eq_true
    exact UInt32.le_trans hle (by decide)
  have hlf : c ≠ '\n' := by
    rintro rfl
    exact absurd hc (by decide)
  simp [charWidth, hle, narrowWidth, hlf, Behind.dropEmoji]

theorem measure_of_isDigit {cs : List Char} (h : ∀ c ∈ cs, c.isDigit) :
    measure cs = ((cs.length : Int), {}) := by
  induction cs with
  | nil => rfl
  | cons c cs ih =>
    have hc : c.isDigit := h c List.mem_cons_self
    rw [measure, ih fun d hd => h d (List.mem_cons_of_mem c hd)]
    simp only [charWidth_of_isDigit hc, List.length_cons]
    rfl

/-- **A number takes as many columns as it has digits.** -/
theorem width_toDigits (n : Nat) : width (Nat.toDigits 10 n) = (Nat.toDigits 10 n).length := by
  have hd : ∀ c ∈ Nat.toDigits 10 n, c.isDigit := fun c hc =>
    Nat.isDigit_of_mem_toDigits (by decide) (by decide) hc
  rw [width, measure_of_isDigit hd]
  exact Int.toNat_natCast _

/-! ## Rulers -/

/-- **A way to measure texts** where they are shown: how many columns they take. All that is relied
on is that digits take one each. -/
structure Ruler where
  width : List Char → Nat
  width_number : ∀ n, width (Nat.toDigits 10 n) = (Nat.toDigits 10 n).length

/-- The columns of a terminal. -/
def Ruler.terminal : Ruler where
  width := Text.width
  width_number := width_toDigits

end Hydration.Text
