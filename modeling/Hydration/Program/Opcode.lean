import Hydration.Number.Binary64

/-!
# Program/Opcode — the instructions of a program

A program is run once against a clone of the static markup. Its instructions walk the clone
(`consumeParent`, `popParent`), keep references to elements (`element`), mark the places where
dynamic content goes (`morph`), push operands on a stack (`string`, `id`, `literal`, …) and use
them up (`attribute`, `helper`, `component`, …).

All counts and positions are of one type `ι`.
-/

namespace Hydration

/-- **A place for dynamic content**: the positions from the root down to its parent, and the
siblings it lies between. An open bound is the edge of the parent. -/
structure Morph (ι : Type) where
  id : ι
  path : List ι
  start : Option ι
  stop : Option ι
  escaped : Bool
deriving DecidableEq, Repr

/-- A number or a truth value. -/
inductive Literal where
  | number (value : Binary64)
  | boolean (value : Bool)
deriving DecidableEq, Repr

/-- The name of a named operand, or the count of them. -/
inductive StackLiteral (ι : Type) where
  | key (name : String)
  | count (number : ι)
deriving DecidableEq, Repr

/-- **An instruction.** -/
inductive Opcode (ι : Type) where
  /-- Binds a parameter of the program. -/
  | blockParam (name : String) (index : ι)
  /-- Puts back what cloning lost on the current node. -/
  | repairClonedNode (blanks : List ι) (checked : Bool)
  /-- Enters a child of the current node. -/
  | consumeParent (index : ι)
  /-- Keeps a reference to the current element. -/
  | element (number : ι)
  /-- Goes back to the parent. -/
  | popParent
  /-- Pushes the programs a call renders, if any. -/
  | program (body inverse : Option ι)
  /-- Pushes the name of what is called. -/
  | string (name : String)
  /-- Pushes a string. -/
  | stringLiteral (value : String)
  /-- Pushes a number or a truth value. -/
  | literal (value : Literal)
  /-- Pushes the value found along a path. -/
  | id (segments : List String)
  /-- Calls with operands from the stack and pushes the result. -/
  | sexpr (params : ι)
  /-- Pushes the name of a named operand, or the count of them. -/
  | stackLiteral (value : StackLiteral ι)
  /-- Sets an attribute from its pieces. -/
  | attribute (quoted : Bool) (name : String) (parts element : ι)
  /-- Calls a helper on an element. -/
  | nodeHelper (params element : ι)
  /-- Calls a helper and renders it into a morph; a block says how many parameters it binds. -/
  | helper (params morph : ι) (blockParams : Option ι)
  /-- Renders a helper or a value into a morph, whichever the name turns out to be. -/
  | ambiguous (morph : ι)
  /-- Renders a component into a morph. -/
  | component (morph blockParams : ι)
  /-- Creates a morph. -/
  | morph (morph : Morph ι)
deriving DecidableEq, Repr

namespace Opcode

variable {ι : Type}

/-- The name of an instruction. -/
def name : Opcode ι → String
  | .blockParam .. => "blockParam"
  | .repairClonedNode .. => "repairClonedNode"
  | .consumeParent .. => "consumeParent"
  | .element .. => "element"
  | .popParent => "popParent"
  | .program .. => "program"
  | .string .. => "string"
  | .stringLiteral .. => "stringLiteral"
  | .literal .. => "literal"
  | .id .. => "id"
  | .sexpr .. => "sexpr"
  | .stackLiteral .. => "stackLiteral"
  | .attribute .. => "attribute"
  | .nodeHelper .. => "nodeHelper"
  | .helper .. => "helper"
  | .ambiguous .. => "ambiguous"
  | .component .. => "component"
  | .morph .. => "morph"

/-- **An anchor** changes the current node or refers to it; morphs are created right behind one. -/
def isAnchor : Opcode ι → Bool
  | .element .. | .consumeParent .. | .popParent => true
  | _ => false

/-- The morph an instruction creates. -/
def morph? : Opcode ι → Option (Morph ι)
  | .morph m => some m
  | _ => none

/-- **Equality of instructions**, number literals compared as numbers. -/
def equals [DecidableEq ι] : Opcode ι → Opcode ι → Bool
  | .literal (.number x), .literal (.number y) => x.equals y
  | a, b => a = b

end Opcode

end Hydration
