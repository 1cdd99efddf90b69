import Hydration.Program.Opcode

/-!
# Program/Basic — compiled programs

A program is a stream of instructions and the programs nested in it, numbered from zero; blocks and
components refer to them by number.
-/

namespace Hydration

/-- **A compiled program.** -/
structure Program (ι : Type) where
  opcodes : List (Opcode ι) := []
  children : List (Program ι) := []

namespace Program

variable {ι : Type}

instance : Inhabited (Program ι) := ⟨{}⟩

/-- The nested program with a number. -/
def child? (p : Program ι) (id : Nat) : Option (Program ι) := p.children[id]?

/-- The morphs of a program, in the order of its stream. -/
def morphs (p : Program ι) : List (Morph ι) := p.opcodes.filterMap Opcode.morph?

/-- Lists of instructions that are equal one by one. -/
def sameOpcodes [DecidableEq ι] : List (Opcode ι) → List (Opcode ι) → Bool
  | [], [] => true
  | a :: as, b :: bs => a.equals b && sameOpcodes as bs
  | _, _ => false

mutual

/-- **Equality of programs**, number literals compared as numbers. -/
def equals [DecidableEq ι] : Program ι → Program ι → Bool
  | ⟨ops, children⟩, q => sameOpcodes ops q.opcodes && sameChildren children q.children

/-- `equals` along lists of nested programs. -/
def sameChildren [DecidableEq ι] : List (Program ι) → List (Program ι) → Bool
  | [], [] => true
  | p :: ps, q :: qs => p.equals q && sameChildren ps qs
  | _, _ => false

end

end Program

end Hydration
