import Hydration.Counter
import Hydration.Number.Shortest
import Hydration.Program.Basic
import Hydration.Text.Quoted

/-!
# Program/Listing — programs as text

A program is listed with one instruction a line: its name, then its operands, a space before each.
Nested programs follow, each under a line with its number and two spaces further in.
-/

namespace Hydration

namespace Listing

/-- A natural in decimal. -/
def natural (n : Nat) : List Char := Nat.toDigits 10 n

/-- Words in one row, a separator between them. -/
def joined (separator : List Char) (words : List (List Char)) : List Char :=
  (words.intersperse separator).flatten

/-- A list in brackets. -/
def bracketed (items : List (List Char)) : List Char :=
  '[' :: joined [',', ' '] items ++ [']']

/-- A truth value. -/
def truth (b : Bool) : List Char := if b then "true".toList else "false".toList

variable {ι : Type} [Counter ι]

/-- A count or position. -/
def count (i : ι) : List Char := natural (Counter.toNat i)

/-- A count or position that may be missing. -/
def optional : Option ι → List Char
  | some i => count i
  | none => "null".toList

end Listing

open Listing

variable {ι : Type} [Counter ι]

/-- The operands of an instruction, in order. -/
def Opcode.operands : Opcode ι → List (List Char)
  | .blockParam name index => [Text.quote name, count index]
  | .repairClonedNode blanks checked => [bracketed (blanks.map count), truth checked]
  | .consumeParent index => [count index]
  | .element number => [count number]
  | .popParent => []
  | .program body inverse => [optional body, optional inverse]
  | .string name => [Text.quote name]
  | .stringLiteral value => [Text.quote value]
  | .literal (.number value) => [value.render]
  | .literal (.boolean value) => [truth value]
  | .id segments => [bracketed (segments.map Text.quote)]
  | .sexpr params => [count params]
  | .stackLiteral (.key name) => [Text.quote name]
  | .stackLiteral (.count number) => [count number]
  | .attribute quoted name parts owner =>
    [truth quoted, Text.quote name, count parts, count owner]
  | .nodeHelper params owner => [count params, count owner]
  | .helper params place none => [count params, count place]
  | .helper params place (some bound) => [count params, count place, count bound]
  | .ambiguous place => [count place]
  | .component place bound => [count place, count bound]
  | .morph m =>
    [count m.id, bracketed (m.path.map count), optional m.start, optional m.stop, truth m.escaped]

/-- **An instruction as text.** -/
def Opcode.render (op : Opcode ι) : List Char :=
  joined [' '] (op.name.toList :: op.operands)

/-- Two spaces for each level. -/
def Listing.indent (depth : Nat) : List Char := List.replicate (2 * depth) ' '

mutual

/-- **The lines of a program**, so many levels in. -/
def Program.lines (depth : Nat) : Program ι → List (List Char)
  | ⟨ops, children⟩ =>
    ops.map (fun op => indent depth ++ op.render) ++ Program.childLines depth 0 children

/-- The lines of nested programs, numbered from `id` on. -/
def Program.childLines (depth id : Nat) : List (Program ι) → List (List Char)
  | [] => []
  | child :: children =>
    (indent depth ++ ("program ".toList ++ natural id ++ [':'])) ::
      (child.lines (depth + 1) ++ Program.childLines depth (id + 1) children)

end

/-- **A program as text**, every line ended by a line feed. -/
def Program.listing (p : Program ι) : List Char :=
  (p.lines 0).flatMap (· ++ ['\n'])

end Hydration
