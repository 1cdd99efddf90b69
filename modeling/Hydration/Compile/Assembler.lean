import Hydration.Compile.Code
import Hydration.Compile.Cursor
import Hydration.Compile.Tape
import Hydration.Options
import Hydration.Program.Basic

/-!
# Compile/Assembler — writing a program node by node

The assembler is told of each node in document order and writes its instructions. It keeps the
position in the markup (`Cursor`), the stream with the morphs still to be placed (`Tape`), the
nested programs, and the last reference to an element.

A step may stop at a violation; what it wrote until then stays written.
-/

namespace Hydration

open Template

/-- **What the compiler reports on its way.** -/
inductive Event where
  /-- Morphs were put into the stream: how many, and where. -/
  | placed (count position : Nat)
  /-- A program was finished: its instructions, morphs and nested programs. -/
  | finished (opcodes morphs children : Nat)
deriving DecidableEq, Repr

/-- **A program being written.** -/
structure Assembler (ι : Type) where
  tape : Tape ι
  children : List (Program ι) := []
  cursor : Cursor ι := {}
  /-- The reference given out last. -/
  reference? : Option ι := none
  /-- The element opened last has no reference yet. -/
  unreferenced : Bool := false
  /-- What was reported so far. -/
  events : List Event := []

/-- **A step of the assembler**: from state to state, with a result or up to a violation. -/
abbrev Assemble (ι : Type) := EStateM Violation (Assembler ι)

namespace Assembler

variable {ι : Type} [Counter ι]

open Counter

/-! ## Parts of steps -/

/-- Writes an instruction. -/
def push (op : Opcode ι) : Assemble ι Unit :=
  modify fun e => { e with tape := e.tape.push op }

/-- Writes code up to its violation, and stops there. -/
def write (code : Code ι) : Assemble ι Unit := do
  modify fun e => { e with tape := e.tape.append code.opcodes }
  match code.violation? with
  | some violation => throw violation
  | none => pure ()

/-- Places the morphs held back. -/
def flush : Assemble ι Unit :=
  modify fun e =>
    if e.tape.pending.isEmpty then e
    else { e with
      tape := e.tape.flush
      events := e.events ++ [.placed e.tape.pending.length e.tape.anchor] }

/-- Visits the next sibling. -/
def visit : Assemble ι ι :=
  modifyGet fun e =>
    let (index, cursor) := e.cursor.visit
    (index, { e with cursor })

/-- **The reference to the element opened last**, given out at its first use. -/
def reference : Assemble ι ι := do
  let e ← get
  match e.reference?, e.unreferenced with
  | some n, false => return n
  | last, _ =>
    let n := after last
    set { e with reference? := some n, unreferenced := false }
    push (.element n)
    return n

/-- Adds a nested program; its number. -/
def addChild (program : Program ι) : Assemble ι ι :=
  modifyGet fun e => (ofNat e.children.length, { e with children := e.children ++ [program] })

/-- **The morph of the dynamic node at hand**: it starts at the node's position and ends before
the next sibling; at either end of the parent the bound is open. -/
def place (index length : Nat) (escaped : Bool) : Assemble ι ι := do
  let slot ← visit
  let start := if toNat slot = 0 then none else some slot
  let stop := if index + 1 = length then none else some (next slot)
  modifyGet fun e =>
    let (id, tape) := e.tape.defer e.cursor.path start stop escaped
    (id, { e with tape })

/-- What is to be repaired on a node: blank texts among its children, and its `checked` state. -/
def repair (o : Options) (blanks : List ι) (checked : Bool) : List (Opcode ι) :=
  let blanks := if o.repairBlankText then blanks else []
  let checked := o.repairChecked && checked
  if blanks.isEmpty && !checked then [] else [.repairClonedNode blanks checked]

/-! ## Steps -/

/-- **A new program**, its parameters bound and its blank texts repaired. -/
def start (o : Options) (params : List String) (blanks : List ι) : Assembler ι where
  tape := Tape.empty.append
    ((params.zipIdx.map fun (name, i) => .blockParam name (ofNat i)) ++ repair o blanks false)

/-- **The finished program**, the last morphs placed, and all that was reported. -/
def finish (e : Assembler ι) : Program ι × List Event :=
  let tape := e.tape.flush
  let program : Program ι := ⟨tape.opcodes, e.children⟩
  let placed := if e.tape.pending.isEmpty then []
    else [.placed e.tape.pending.length e.tape.anchor]
  (program, e.events ++ placed ++
    [.finished program.opcodes.length program.morphs.length program.children.length])

/-- **A text or comment**: a sibling, and nothing to do. -/
def pass : Assemble ι Unit := discard visit

/-- A dynamic attribute of the element opened last. -/
def setAttribute (a : Attribute) : Assemble ι Unit := do
  unless a.isStatic do
    write a.code
    let element ← reference
    push (.attribute a.quoted a.name (ofNat a.value.length) element)

/-- A helper call in the tag of the element opened last. -/
def nodeHelper (call : Call) : Assemble ι Unit := do
  write (noProgram ++ call.code)
  let element ← reference
  push (.nodeHelper (ofNat call.params.length) element)

/-- **An element is opened.** Its clone is entered, unless it is the only root; a reference used
often enough is taken right away. -/
def startElement (o : Options) (element : Element) (single : Bool) (uses : ι) (blanks : List ι) :
    Assemble ι Unit := do
  flush
  let index ← visit
  modify ({ · with unreferenced := true })
  unless single do
    push (.consumeParent index)
    if o.cacheThreshold.toNat < toNat uses then
      discard reference
  (repair o blanks element.isChecked).forM push
  modify fun e => { e with cursor := e.cursor.descend index }
  element.attributes.forM setAttribute
  element.helpers.forM nodeHelper

/-- **An element is closed.** -/
def endElement (single : Bool) : Assemble ι Unit := do
  flush
  unless single do
    push .popParent
  modify fun e => { e with cursor := e.cursor.ascend }

/-- **A mustache**, the `index`-th of `length` siblings. -/
def mustache (m : Mustache) (index length : Nat) : Assemble ι Unit := do
  let morph ← place index length m.escaped
  if m.call.isHelper then
    write (noProgram ++ m.call.code)
    push (.helper (ofNat m.call.params.length) morph none)
  else
    write m.call.callee.nameCode
    push (.ambiguous morph)

/-- **A block**, its fragments compiled. -/
def block (b : Block) (index length : Nat) (body : Program ι) (inverse : Option (Program ι)) :
    Assemble ι Unit := do
  let morph ← place index length true
  let body ← addChild body
  let inverse ← inverse.mapM addChild
  push (.program (some body) inverse)
  write b.call.code
  push (.helper (ofNat b.call.params.length) morph (some (ofNat b.body.blockParams.length)))

/-- **A component**, its body compiled. -/
def component (c : Component) (index length : Nat) (body : Program ι) : Assemble ι Unit := do
  if c.tag = "" then
    throw ⟨.emptyTag, c.span⟩
  let morph ← place index length false
  let body ← addChild body
  push (.program (some body) none)
  write (.one (.string c.tag) ++ (attributesHash c.attributes).code)
  push (.component morph (ofNat c.body.blockParams.length))

end Assembler

end Hydration
