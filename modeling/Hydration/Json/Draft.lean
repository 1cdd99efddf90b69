import Hydration.Json.Basic

/-!
# Json/Draft — what a text says up to where it breaks

A text that is not JSON still says something before its first defect, and whoever reads it in
order may object to that first. So a text is scanned into a *draft*: a document with a flaw in each
place that cannot be read.

Most flaws stop everything. Three do not when the place is only passed over: a number beyond the
doubles, an escape that names no character, and an array or object below the levels that are read
(`within`) are known to be bad only once their value is asked for. A flaw therefore says what it
amounts to when read, and what when skipped.
-/

namespace Hydration

/-- **A way for a text not to be JSON.** -/
inductive Defect where
  /-- The text ends where a comma or a closing bracket is due. -/
  | unclosed
  /-- The text ends inside a value, or where one is due. -/
  | cutOff
  /-- Something stands where it cannot. -/
  | malformed
deriving DecidableEq, Repr

/-- **A place of a text that cannot be read.** -/
structure Flaw where
  /-- What it amounts to when its value is asked for. -/
  onRead : Defect
  /-- What it amounts to when it is passed over; `none` if it can be. -/
  onSkip : Option Defect
  /-- It stands in the place of a key, and not of a value. -/
  inKey : Bool := false
deriving DecidableEq, Repr

/-- A defect that stops readers and skippers alike. -/
def Flaw.fatal (defect : Defect) : Flaw := ⟨defect, some defect, false⟩

/-- **A document read from a text.** -/
abbrev Draft := Document Flaw

/-- **Flaws that can be met**: what each amounts to when read and when skipped. -/
class Flawed (φ : Type) where
  onRead : φ → Defect
  onSkip : φ → Option Defect
  inKey : φ → Bool

instance : Flawed Flaw := ⟨Flaw.onRead, Flaw.onSkip, Flaw.inKey⟩

instance : Flawed Empty := ⟨nofun, nofun, nofun⟩

namespace Document

variable {φ : Type} [Flawed φ]

mutual

/-- **The first defect met when a document is passed over.** -/
def skipDefect? : Document φ → Option Defect
  | .array items => skipDefectItems? items
  | .object members => skipDefectMembers? members
  | .flawed f => Flawed.onSkip f
  | _ => none

/-- `skipDefect?` along a list. -/
def skipDefectItems? : List (Document φ) → Option Defect
  | [] => none
  | item :: items => item.skipDefect? <|> skipDefectItems? items

/-- `skipDefect?` along the members of an object. -/
def skipDefectMembers? : List (String × Document φ) → Option Defect
  | [] => none
  | (_, value) :: members => value.skipDefect? <|> skipDefectMembers? members

end

mutual

/-- **The value of a document**, or the first defect met when it is read to its end. -/
def toJson : Document φ → Except Defect Json
  | .null => .ok .null
  | .boolean b => .ok (.boolean b)
  | .number n => .ok (.number n)
  | .string s => .ok (.string s)
  | .array items => .array <$> itemsToJson items
  | .object members => .object <$> membersToJson members
  | .flawed f => .error (Flawed.onRead f)

/-- `toJson` along a list. -/
def itemsToJson : List (Document φ) → Except Defect (List Json)
  | [] => .ok []
  | item :: items => do return (← item.toJson) :: (← itemsToJson items)

/-- `toJson` along the members of an object. -/
def membersToJson : List (String × Document φ) → Except Defect (List (String × Json))
  | [] => .ok []
  | (key, value) :: members => do return (key, ← value.toJson) :: (← membersToJson members)

end

mutual

/-- **What can be read of a draft**, going down so many levels of arrays and objects. One below them
is a flaw, which can still be passed over. -/
def within : Nat → Draft → Draft
  | 0, .array items => .flawed ⟨.malformed, skipDefectItems? items, false⟩
  | 0, .object members => .flawed ⟨.malformed, skipDefectMembers? members, false⟩
  | levels + 1, .array items => .array (itemsWithin levels items)
  | levels + 1, .object members => .object (membersWithin levels members)
  | _, leaf => leaf

/-- `within` along a list. -/
def itemsWithin (levels : Nat) : List Draft → List Draft
  | [] => []
  | item :: items => item.within levels :: itemsWithin levels items

/-- `within` along the members of an object. -/
def membersWithin (levels : Nat) : List (String × Draft) → List (String × Draft)
  | [] => []
  | (key, value) :: members => (key, value.within levels) :: membersWithin levels members

end

end Document

end Hydration
