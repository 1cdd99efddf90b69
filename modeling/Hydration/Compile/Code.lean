import Hydration.Compile.Violation
import Hydration.Counter
import Hydration.Program.Opcode

/-!
# Compile/Code — operands as instructions

An expression becomes instructions that leave its value on the stack. A call is its name, its
positional operands, then its named operands, each a value and its name, and their count; the
instruction that uses the call up comes last. Instructions are written up to the first violation,
so a piece of code is a list of instructions and the violation it stops at, if any.
-/

namespace Hydration

/-- **Instructions up to a violation**, or without one. -/
structure Code (ι : Type) where
  opcodes : List (Opcode ι)
  violation? : Option Violation := none
deriving DecidableEq, Repr

namespace Code

variable {ι : Type}

/-- No instructions. -/
def empty : Code ι where
  opcodes := []

/-- One instruction. -/
def one (op : Opcode ι) : Code ι where
  opcodes := [op]

/-- Nothing but a violation, if there is one. -/
def check (violation? : Option Violation) : Code ι where
  opcodes := []
  violation?

/-- **One piece of code after another**; what follows a violation is not written. -/
def append (c d : Code ι) : Code ι :=
  match c.violation? with
  | some _ => c
  | none => ⟨c.opcodes ++ d.opcodes, d.violation?⟩

instance : Append (Code ι) := ⟨append⟩

theorem append_of_violation {c : Code ι} {v : Violation} (h : c.violation? = some v) (d : Code ι) :
    c ++ d = c := by
  change c.append d = c
  simp [append, h]

theorem append_of_none {c : Code ι} (h : c.violation? = none) (d : Code ι) :
    c ++ d = ⟨c.opcodes ++ d.opcodes, d.violation?⟩ := by
  change c.append d = _
  simp [append, h]

/-- **Code follows code in any grouping.** -/
theorem append_assoc (c d e : Code ι) : c ++ d ++ e = c ++ (d ++ e) := by
  cases hc : c.violation? with
  | some v => rw [append_of_violation hc, append_of_violation hc, append_of_violation hc]
  | none =>
    rw [append_of_none hc d, append_of_none hc (d ++ e)]
    cases hd : d.violation? with
    | some v => rw [append_of_violation hd, append_of_violation (v := v) rfl, hd]
    | none => rw [append_of_none hd, append_of_none rfl, List.append_assoc]

end Code

namespace Template

variable {ι : Type} [Counter ι]

open Counter

/-- The name of what is called. -/
def Path.nameCode (p : Path) : Code ι := .check p.violation? ++ .one (.string p.dotted)

/-- The value found along a path. -/
def Path.code (p : Path) : Code ι := .check p.violation? ++ .one (.id p.segments)

/-- The count that ends the named operands. -/
def countCode (n : Nat) : Code ι := .one (.stackLiteral (.count (ofNat n)))

/-- What is rendered by a call: nothing. -/
def noProgram : Code ι := .one (.program none none)

/-- What precedes a call inside another one. -/
def subCode : Code ι := .one (.string "sexpr") ++ noProgram

/-- The violation of a named operand without a name. -/
def keyViolation? (key : String) (span : Span) : Option Violation :=
  if key = "" then some ⟨.emptyKey, span⟩ else none

mutual

/-- **An expression**, leaving its value on the stack. -/
def Expr.code : Expr → Code ι
  | .path p => p.code
  | .sub c => subCode ++ c.code ++ .one (.sexpr (ofNat c.params.length))
  | .string value _ => .one (.stringLiteral value)
  | .number value _ => .one (.literal (.number value))
  | .boolean value _ => .one (.literal (.boolean value))

/-- **A call**: its name and operands. -/
def Call.code : Call → Code ι
  | ⟨callee, params, hash, _⟩ =>
    callee.nameCode ++ exprsCode params ++
      match hash with
      | none => countCode 0
      | some ⟨pairs, _⟩ => pairsCode pairs ++ countCode pairs.length

/-- Expressions in order. -/
def exprsCode : List Expr → Code ι
  | [] => .empty
  | e :: es => e.code ++ exprsCode es

/-- Named operands in order, each value before its name. -/
def pairsCode : List Pair → Code ι
  | [] => .empty
  | ⟨key, value, span⟩ :: pairs =>
    .check (keyViolation? key span) ++ value.code ++ .one (.stackLiteral (.key key)) ++
      pairsCode pairs

end

/-- Named operands and their count. -/
def Hash.code (h : Hash) : Code ι := pairsCode h.pairs ++ countCode h.pairs.length

/-! ## Attributes -/

/-- A piece of an attribute value as an expression. -/
def Part.toExpr : Part → Expr
  | .text t => .string t.chars t.span
  | .path p => .path p
  | .sub c => .sub c

/-- **The pieces of an attribute value**, as the operands of a call without a name. -/
def Attribute.code (a : Attribute) : Code ι :=
  noProgram ++ .one (.string "") ++ exprsCode (a.value.map Part.toExpr) ++ countCode 0

/-- **The value of an attribute as one expression**: several pieces are joined by a call. -/
def Attribute.toExpr (a : Attribute) : Expr :=
  match a.value with
  | [] => .string "" {}
  | [part] => part.toExpr
  | parts => .sub {
      callee := { segments := ["concat"], span := a.span }
      params := parts.map Part.toExpr
      span := a.span }

/-- **The named operands of a component**: its attributes. -/
def attributesHash (attributes : List Attribute) : Hash where
  pairs := attributes.map fun a => { key := a.name, value := a.toExpr, span := a.span }
  span := match attributes with
    | [] => {}
    | a :: as => as.foldl (fun span b => span.hull b.span) a.span

end Template

end Hydration
