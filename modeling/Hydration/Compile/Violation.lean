import Hydration.Template.Basic

/-!
# Compile/Violation — what a tree can be refused for

The compiler trusts the tree it is given but for three things: a path may not have an empty
segment, a named operand needs a name, and a component needs a tag.
-/

namespace Hydration

/-- **A way for a node to be ill formed.** -/
inductive Cause where
  /-- A path has an empty segment; the path as it was written. -/
  | emptySegment (path : String)
  /-- A named operand has no name. -/
  | emptyKey
  /-- A component has no tag. -/
  | emptyTag
deriving DecidableEq, Repr

/-- **An ill formed node**: what is wrong with it, and where it was written. -/
structure Violation where
  cause : Cause
  span : Span
deriving DecidableEq, Repr

namespace Violation

/-- The kind of the offending node. -/
def kind (v : Violation) : String :=
  match v.cause with
  | .emptySegment _ => "PathExpression"
  | .emptyKey => "HashPair"
  | .emptyTag => "ComponentNode"

/-- What is wrong with the node. -/
def complaint (v : Violation) : String :=
  match v.cause with
  | .emptySegment path => "empty segment in `" ++ path ++ "`"
  | .emptyKey => "expected a key"
  | .emptyTag => "expected a tag name"

/-- **The message of a violation.** -/
def message (v : Violation) : String := "invalid " ++ v.kind ++ ": " ++ v.complaint

/-- **Where the node was written**, if that is known: an empty span is none. -/
def range? (v : Violation) : Option Span := if v.span.isEmpty then none else some v.span

end Violation

/-- The violation of a path with an empty segment. -/
def Template.Path.violation? (p : Template.Path) : Option Violation :=
  if p.isBroken then some ⟨.emptySegment p.dotted, p.span⟩ else none

end Hydration
