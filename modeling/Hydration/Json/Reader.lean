import Hydration.Json.Draft
import Hydration.Text.Bytes

/-!
# Json/Reader — scanning JSON text

The scanner follows the grammar of JSON: `scanValue` reads one value and gives back the text behind
it, or none if the text cannot be followed further. Arrays and objects hold a flaw as their last
item or member where they break.

The recursion is bounded by a number that starts above twice the length of the text; every second
step takes at least one character, so the bound is never met.
-/

namespace Hydration.Json

/-- **A scanned value and the text behind it**, if the text can be followed past the value. -/
structure Scan where
  value : Draft
  rest : Option (List Char)

namespace Scan

/-- The text breaks here. -/
def stop (defect : Defect) : Scan := ⟨.flawed (.fatal defect), none⟩

end Scan

/-! ## Leaves -/

/-- The four blanks of JSON. -/
def isBlank (c : Char) : Bool := c = ' ' || c = '\t' || c = '\n' || c = '\r'

/-- The text from its first character that is not blank. -/
def skipBlanks (cs : List Char) : List Char := cs.dropWhile isBlank

/-- The text behind an expected word. -/
def scanWord : (word cs : List Char) → Except Defect (List Char)
  | [], cs => .ok cs
  | _ :: _, [] => .error .cutOff
  | w :: word, c :: cs => if w = c then scanWord word cs else .error .malformed

/-- A value written as one word. -/
def scanKeyword (value : Draft) (word cs : List Char) : Scan :=
  match scanWord word cs with
  | .ok rest => ⟨value, some rest⟩
  | .error defect => .stop defect

/-- The natural that decimal digits stand for. -/
def digitsValue (ds : List Char) : Nat :=
  ds.foldl (fun n c => 10 * n + (c.toNat - '0'.toNat)) 0

/-- A number that breaks off: at the end of the text it is cut off for a reader, and malformed for
one who only passes over it. -/
def stopNumber (cs : List Char) : Scan :=
  if cs.isEmpty then ⟨.flawed ⟨.cutOff, some .malformed, false⟩, none⟩ else .stop .malformed

/-- A real number; one beyond the doubles cannot be read. -/
def scannedReal (negative : Bool) (digits : Nat) (exponent : Int) (rest : List Char) : Scan :=
  match Binary64.ofDecimal? negative digits exponent with
  | some x => ⟨.number (.real x), some rest⟩
  | none => ⟨.flawed ⟨.malformed, none, false⟩, some rest⟩

/-- A whole number: an integer from `-2 ^ 63` to `2 ^ 64 - 1`, else a real. Minus zero is real. -/
def scannedWhole (negative : Bool) (n : Nat) (rest : List Char) : Scan :=
  if negative then
    if 0 < n ∧ n ≤ Nat.pow 2 63 then ⟨.number (.integer (-n)), some rest⟩
    else scannedReal true n 0 rest
  else if n < Nat.pow 2 64 then ⟨.number (.integer n), some rest⟩
  else scannedReal false n 0 rest

/-- The exponent of a number, from behind the letter `e`. -/
def scanExponent (negative : Bool) (digits : Nat) (exponent : Int) (cs : List Char) : Scan :=
  let (minus, cs) := match cs with
    | '-' :: cs => (true, cs)
    | '+' :: cs => (false, cs)
    | cs => (false, cs)
  let (ds, rest) := cs.span Char.isDigit
  if ds.isEmpty then stopNumber cs
  else
    let shift : Int := digitsValue ds
    scannedReal negative digits (exponent + if minus then -shift else shift) rest

/-- A number, from behind its minus sign. -/
def scanNumber (negative : Bool) (cs : List Char) : Scan :=
  let (whole, rest) := cs.span Char.isDigit
  if whole.isEmpty then stopNumber cs
  else if whole.head? = some '0' ∧ 1 < whole.length then .stop .malformed
  else match rest with
    | '.' :: rest =>
      let (places, behind) := rest.span Char.isDigit
      if places.isEmpty then stopNumber rest
      else
        let digits := digitsValue (whole ++ places)
        let exponent : Int := -places.length
        match behind with
        | 'e' :: cs | 'E' :: cs => scanExponent negative digits exponent cs
        | _ => scannedReal negative digits exponent behind
    | 'e' :: cs | 'E' :: cs => scanExponent negative (digitsValue whole) 0 cs
    | _ => scannedWhole negative (digitsValue whole) rest

/-! ## Strings -/

/-- The value of a hexadecimal digit. -/
def hexDigit? (c : Char) : Option Nat :=
  if '0' ≤ c ∧ c ≤ '9' then some (c.toNat - '0'.toNat)
  else if 'a' ≤ c ∧ c ≤ 'f' then some (c.toNat - 'a'.toNat + 10)
  else if 'A' ≤ c ∧ c ≤ 'F' then some (c.toNat - 'A'.toNat + 10)
  else none

/-- The value of four hexadecimal digits. -/
def hexCode? (a b c d : Char) : Option Nat := do
  return ((← hexDigit? a) * 16 + (← hexDigit? b)) * 256 + (← hexDigit? c) * 16 + (← hexDigit? d)

/-- The defect of an escape with fewer than four characters behind it: cut off, unless the text
goes on for four bytes. -/
def shortEscape (cs : List Char) : Defect :=
  if Text.byteLength cs < 4 then .cutOff else .malformed

/-- The character of a one-letter escape. -/
def letterEscape? : Char → Option Char
  | '"' => some '"'
  | '\\' => some '\\'
  | '/' => some '/'
  | 'b' => some '\x08'
  | 'f' => some '\x0c'
  | 'n' => some '\n'
  | 'r' => some '\r'
  | 't' => some '\t'
  | _ => none

/-- **The text behind a string that is passed over**: its escapes have the right form, whatever
they name. -/
def skipString : List Char → Except Defect (List Char)
  | [] => .error .cutOff
  | '"' :: cs => .ok cs
  | '\\' :: 'u' :: a :: b :: c :: d :: cs =>
    if (hexCode? a b c d).isSome then skipString cs else .error .malformed
  | '\\' :: 'u' :: cs => .error (shortEscape cs)
  | '\\' :: c :: cs => if (letterEscape? c).isSome then skipString cs else .error .malformed
  | ['\\'] => .error .cutOff
  | c :: cs => if c < ' ' then .error .malformed else skipString cs

/-- **A scanned string**: its characters, or what is wrong with it, and the text behind it. -/
structure StringScan where
  value : Except Flaw String
  rest : Option (List Char)

/-- The string breaks here. -/
def StringScan.stop (defect : Defect) : StringScan := ⟨.error (.fatal defect), none⟩

/-- An escape names no character; the string can still be passed over, as far as it goes. -/
def StringScan.nameless (behind : List Char) : StringScan :=
  match skipString behind with
  | .ok rest => ⟨.error ⟨.malformed, none, false⟩, some rest⟩
  | .error defect => ⟨.error ⟨.malformed, some defect, false⟩, none⟩

/-- **A string, from behind its opening quote.** Characters above the basic plane are escaped as
two halves, a leading one and a trailing one; a half alone names no character. -/
def scanString (done : List Char) : List Char → StringScan
  | [] => .stop .cutOff
  | '"' :: cs => ⟨.ok (String.ofList done.reverse), some cs⟩
  | '\\' :: 'u' :: a :: b :: c :: d :: cs =>
    match hexCode? a b c d with
    | none => .stop .malformed
    | some code =>
      if 0xDC00 ≤ code ∧ code ≤ 0xDFFF then .nameless cs
      else if 0xD800 ≤ code ∧ code ≤ 0xDBFF then
        match cs with
        | '\\' :: 'u' :: a :: b :: c :: d :: behind =>
          match hexCode? a b c d with
          | none => .stop .malformed
          | some low =>
            if 0xDC00 ≤ low ∧ low ≤ 0xDFFF then
              let char := Char.ofNat (0x10000 + (code - 0xD800) * 0x400 + (low - 0xDC00))
              scanString (char :: done) behind
            else .nameless behind
        | '\\' :: 'u' :: cs => .stop (shortEscape cs)
        | ['\\'] | [] => .stop .cutOff
        | cs => .nameless cs
      else scanString (Char.ofNat code :: done) cs
  | '\\' :: 'u' :: cs => .stop (shortEscape cs)
  | '\\' :: c :: cs =>
    match letterEscape? c with
    | some char => scanString (char :: done) cs
    | none => .stop .malformed
  | ['\\'] => .stop .cutOff
  | c :: cs => if c < ' ' then .stop .malformed else scanString (c :: done) cs

/-! ## Values -/

/-- A flaw in the place of a member. -/
def memberFlaw (onRead : Defect) (onSkip : Option Defect) : String × Draft :=
  ("", .flawed ⟨onRead, onSkip, true⟩)

/-- The text breaks where a member should stand. -/
def stopMember (defect : Defect) : List (String × Draft) × Option (List Char) :=
  ([memberFlaw defect (some defect)], none)

/-- The text breaks where an item should stand. -/
def stopItem (defect : Defect) : List Draft × Option (List Char) :=
  ([.flawed (.fatal defect)], none)

mutual

/-- **One value**, blanks before it skipped. -/
def scanValue : Nat → List Char → Scan
  | 0, _ => .stop .malformed
  | bound + 1, cs =>
    match skipBlanks cs with
    | [] => .stop .cutOff
    | 'n' :: cs => scanKeyword .null "ull".toList cs
    | 't' :: cs => scanKeyword (.boolean true) "rue".toList cs
    | 'f' :: cs => scanKeyword (.boolean false) "alse".toList cs
    | '-' :: cs => scanNumber true cs
    | '"' :: cs =>
      match scanString [] cs with
      | ⟨.ok s, rest⟩ => ⟨.string s, rest⟩
      | ⟨.error flaw, rest⟩ => ⟨.flawed flaw, rest⟩
    | '[' :: cs =>
      match skipBlanks cs with
      | ']' :: rest => ⟨.array [], some rest⟩
      | [] => ⟨.array [.flawed (.fatal .unclosed)], none⟩
      | cs =>
        let (items, rest) := scanItems bound cs
        ⟨.array items, rest⟩
    | '\x7b' :: cs =>
      match skipBlanks cs with
      | '\x7d' :: rest => ⟨.object [], some rest⟩
      | [] => ⟨.object [memberFlaw .unclosed (some .unclosed)], none⟩
      | cs =>
        let (members, rest) := scanMembers bound cs
        ⟨.object members, rest⟩
    | c :: cs => if c.isDigit then scanNumber false (c :: cs) else .stop .malformed

/-- **The items of an array** from the next one on. -/
def scanItems : Nat → List Char → List Draft × Option (List Char)
  | 0, _ => stopItem .malformed
  | bound + 1, cs =>
    let scan := scanValue bound cs
    match scan.rest with
    | none => ([scan.value], none)
    | some cs =>
      let (items, rest) :=
        match skipBlanks cs with
        | [] => stopItem .unclosed
        | ']' :: rest => ([], some rest)
        | ',' :: cs =>
          match skipBlanks cs with
          | [] => stopItem .cutOff
          | ']' :: _ => stopItem .malformed
          | cs => scanItems bound cs
        | _ => stopItem .malformed
      (scan.value :: items, rest)

/-- **The members of an object** from the next one on. A key that names no string makes its member
unreadable, and the members behind it are followed for those who pass over the object. -/
def scanMembers : Nat → List Char → List (String × Draft) × Option (List Char)
  | 0, _ => stopMember .malformed
  | bound + 1, '"' :: cs =>
    let key := scanString [] cs
    let scan : Scan := match key.rest with
      | none => ⟨.flawed (.fatal .malformed), none⟩
      | some cs =>
        match skipBlanks cs with
        | [] => .stop .unclosed
        | ':' :: cs => scanValue bound cs
        | _ => .stop .malformed
    let member := match key.value, key.rest with
      | .ok name, _ => (name, scan.value)
      | .error flaw, none => memberFlaw flaw.onRead flaw.onSkip
      | .error flaw, some _ => memberFlaw flaw.onRead scan.value.skipDefect?
    match scan.rest with
    | none => ([member], none)
    | some cs =>
      let (members, rest) :=
        match skipBlanks cs with
        | [] => stopMember .unclosed
        | '\x7d' :: rest => ([], some rest)
        | ',' :: cs =>
          match skipBlanks cs with
          | [] => stopMember .cutOff
          | '\x7d' :: _ => stopMember .malformed
          | cs => scanMembers bound cs
        | _ => stopMember .malformed
      (member :: members, rest)
  | _ + 1, _ => stopMember .malformed

end

/-- **A scanned text**: the draft of its value, and whether only blanks follow it. -/
structure ScannedText where
  draft : Draft
  ended : Bool

/-- Scans a text that should hold one value. -/
def scanText (text : String) : ScannedText :=
  let cs := text.toList
  let scan := scanValue (2 * cs.length + 2) cs
  ⟨scan.value, scan.rest.all fun rest => (skipBlanks rest).isEmpty⟩

/-- **The value of a text**, or its first defect. -/
def parse (text : String) : Except Defect Json := do
  let scanned := scanText text
  let value ← scanned.draft.toJson
  if scanned.ended then return value else throw .malformed

end Hydration.Json
