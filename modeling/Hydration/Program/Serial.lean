import Hydration.Counter
import Hydration.Json.Basic
import Hydration.Program.Basic

/-!
# Program/Serial — programs as JSON

A program is an object with its `opcodes` and `children`; an instruction is an object with its name
as `op` and its operands as `args`. One operand stands for itself, several are an object, and
`popParent` has none. A number that is not finite has no JSON form and becomes null.
-/

namespace Hydration

namespace Serial

variable {ι : Type} [Counter ι]

/-- A count or position. -/
def count (i : ι) : Json := .ofNat (Counter.toNat i)

/-- A count or position that may be missing. -/
def optional : Option ι → Json
  | some i => count i
  | none => .null

/-- A list of counts or positions. -/
def counts (is : List ι) : Json := .array (is.map count)

/-- A morph, as an object. -/
def morph (m : Morph ι) : Json := .object [
  ("id", count m.id), ("path", counts m.path), ("start", optional m.start),
  ("end", optional m.stop), ("escaped", .boolean m.escaped)]

/-- A literal, as itself. -/
def literal : Literal → Json
  | .number x => if x.isFinite then .number (.real x) else .null
  | .boolean b => .boolean b

/-- The operands of an instruction. -/
def args? : Opcode ι → Option Json
  | .blockParam name index => some (.object [("name", .string name), ("index", count index)])
  | .repairClonedNode blanks checked =>
    some (.object [("blank_text_nodes", counts blanks), ("checked", .boolean checked)])
  | .consumeParent index => some (count index)
  | .element number => some (count number)
  | .popParent => none
  | .program body inverse =>
    some (.object [("body", optional body), ("inverse", optional inverse)])
  | .string name => some (.string name)
  | .stringLiteral value => some (.string value)
  | .literal value => some (literal value)
  | .id segments => some (.array (segments.map .string))
  | .sexpr params => some (count params)
  | .stackLiteral (.key name) => some (.string name)
  | .stackLiteral (.count number) => some (count number)
  | .attribute quoted name parts element => some (.object [
      ("quoted", .boolean quoted), ("name", .string name), ("parts", count parts),
      ("element", count element)])
  | .nodeHelper params element =>
    some (.object [("params", count params), ("element", count element)])
  | .helper params morph blockParams => some (.object [
      ("params", count params), ("morph", count morph), ("block_params", optional blockParams)])
  | .ambiguous morph => some (.object [("morph", count morph)])
  | .component morph blockParams =>
    some (.object [("morph", count morph), ("block_params", count blockParams)])
  | .morph m => some (morph m)

end Serial

variable {ι : Type} [Counter ι]

/-- **An instruction as JSON.** -/
def Opcode.toJson (op : Opcode ι) : Json :=
  match Serial.args? op with
  | some args => .object [("op", .string op.name), ("args", args)]
  | none => .object [("op", .string op.name)]

mutual

/-- **A program as JSON.** -/
def Program.toJson : Program ι → Json
  | ⟨ops, children⟩ => .object [
      ("opcodes", .array (ops.map Opcode.toJson)), ("children", .array (Program.childrenToJson children))]

/-- `toJson` along a list of nested programs. -/
def Program.childrenToJson : List (Program ι) → List Json
  | [] => []
  | child :: children => child.toJson :: Program.childrenToJson children

end

end Hydration
