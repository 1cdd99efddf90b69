import Hydration.Compile.Assembler

/-!
# Compile/Walk — from a tree to its program

The walk visits the statements of a fragment in document order and tells the assembler of each.
Fragments inside blocks and components are compiled on their own, before the statement they belong
to.
-/

namespace Hydration

open Template

/-- **What compiling gives**: a program or the first violation, and all that was reported. -/
structure Compiled (ι : Type) where
  result : Except Violation (Program ι)
  events : List Event

namespace Template

variable {ι : Type} [Counter ι]

/-- How often the reference to an element is used: by dynamic attributes, helpers and dynamic
children. -/
def Element.uses (e : Element) : Nat :=
  e.attributes.countP (!·.isStatic) + e.helpers.length + e.children.countP Statement.isDynamic

/-- The positions of blank texts in a list of statements. -/
def blanks (statements : List Statement) : List ι :=
  (statements.zipIdx.filter fun (s, _) => s.isBlank).map fun (_, i) => Counter.ofNat i

end Template

namespace Compiled

variable {ι : Type} [Counter ι]

/-- Runs the steps for a whole program. -/
def run (e : Assembler ι) (steps : Assemble ι Unit) : Compiled ι :=
  match steps e with
  | .ok _ e =>
    let (program, events) := e.finish
    ⟨.ok program, events⟩
  | .error violation e => ⟨.error violation, e.events⟩

/-- Takes a nested program in: what was reported for it, and the program itself. -/
def absorb (c : Compiled ι) : Assemble ι (Program ι) := do
  modify fun e => { e with events := e.events ++ c.events }
  match c.result with
  | .ok program => return program
  | .error violation => throw violation

end Compiled

namespace Template

variable {ι : Type} [Counter ι]

mutual

/-- **Compiles a fragment**, and every fragment inside it. -/
def Fragment.compile (o : Options) : Fragment → Compiled ι
  | ⟨body, params, _⟩ =>
    Compiled.run (Assembler.start o params (blanks body))
      (walk o (body.length == 1) body.length 0 body)

/-- **Walks the statements from the `index`-th of `length` siblings on**; `single` if there is only
one, at the root. -/
def walk (o : Options) (single : Bool) (length : Nat) : Nat → List Statement → Assemble ι Unit
  | _, [] => pure ()
  | index, .text _ :: rest => do
    Assembler.pass
    walk o single length (index + 1) rest
  | index, .comment _ :: rest => do
    Assembler.pass
    walk o single length (index + 1) rest
  | index, .element ⟨tag, attributes, helpers, children, span⟩ :: rest => do
    let element : Element := ⟨tag, attributes, helpers, children, span⟩
    Assembler.startElement o element single (Counter.ofNat element.uses) (blanks children)
    walk o false children.length 0 children
    Assembler.endElement single
    walk o single length (index + 1) rest
  | index, .mustache m :: rest => do
    Assembler.mustache m index length
    walk o single length (index + 1) rest
  | index, .block ⟨call, body, none, span⟩ :: rest => do
    let program ← (body.compile o).absorb
    Assembler.block ⟨call, body, none, span⟩ index length program none
    walk o single length (index + 1) rest
  | index, .block ⟨call, body, some inverse, span⟩ :: rest => do
    let program ← (body.compile o).absorb
    let other ← (inverse.compile o).absorb
    Assembler.block ⟨call, body, some inverse, span⟩ index length program (some other)
    walk o single length (index + 1) rest
  | index, .component ⟨tag, attributes, body, span⟩ :: rest => do
    let program ← (body.compile o).absorb
    Assembler.component ⟨tag, attributes, body, span⟩ index length program
    walk o single length (index + 1) rest

end

end Template

end Hydration
