import Hydration.Number.Binary64
import Hydration.Template.Path

/-!
# Template/Basic — the template tree

A template is a *fragment* of markup: a list of statements, some of which (blocks and components)
hold further fragments. Text, comments and elements are the static markup that a runtime clones;
mustaches, blocks and components are *dynamic*, filled in at each place by evaluating a call.

* Expressions: `Expr`, `Call`, `Hash`, `Pair`.
* Markup: `Statement`, `Element`, `Block`, `Component`, `Fragment`.

Every node carries the span it was written at.
-/

namespace Hydration.Template

/-! ## Expressions -/

mutual

/-- **An operand of a call.** -/
inductive Expr where
  | path (path : Path)
  | sub (call : Call)
  | string (value : String) (span : Span)
  | number (value : Binary64) (span : Span)
  | boolean (value : Bool) (span : Span)

/-- **A call**: what is called, with positional and named operands. -/
structure Call where
  callee : Path
  params : List Expr := []
  hash : Option Hash := none
  span : Span := {}

/-- The named operands of a call. -/
structure Hash where
  pairs : List Pair
  span : Span := {}

/-- One named operand. -/
structure Pair where
  key : String
  value : Expr
  span : Span := {}

end

instance : Inhabited Expr := ⟨.boolean false {}⟩

/-- Where an expression was written. -/
def Expr.span : Expr → Span
  | .path p => p.span
  | .sub c => c.span
  | .string _ s => s
  | .number _ s => s
  | .boolean _ s => s

namespace Call

/-- The call of a dotted path without operands. -/
def ofString (path : String) : Call where
  callee := Path.ofString path

/-- Adds a positional operand. -/
def withParam (call : Call) (value : Expr) : Call :=
  { call with params := call.params ++ [value] }

/-- Adds a named operand; the first one brings the hash with it. -/
def withPair (call : Call) (key : String) (value : Expr) : Call :=
  let hash := call.hash.getD { pairs := [] }
  { call with hash := some { hash with pairs := hash.pairs ++ [{ key, value }] } }

/-- Operands of either kind make a call a helper invocation; without any, only the runtime can
tell a helper from a value. -/
def isHelper (call : Call) : Bool := !call.params.isEmpty || call.hash.isSome

end Call

/-! ## Markup -/

/-- A run of text. -/
structure TextNode where
  chars : String
  span : Span := {}
deriving DecidableEq, Repr

/-- A comment. -/
structure Comment where
  value : String
  span : Span := {}
deriving DecidableEq, Repr

/-- One piece of an attribute value. -/
inductive Part where
  | text (text : TextNode)
  | path (path : Path)
  | sub (call : Call)

/-- The piece is plain text. -/
def Part.isText : Part → Bool
  | .text _ => true
  | _ => false

/-- **An attribute**: a name, and a value in pieces. -/
structure Attribute where
  name : String
  value : List Part
  quoted : Bool := true
  span : Span := {}

/-- No piece of the value needs evaluation. -/
def Attribute.isStatic (a : Attribute) : Bool := a.value.all Part.isText

/-- **A mustache**: a call whose value is put into the text, escaped or as it is. -/
structure Mustache where
  call : Call
  escaped : Bool := true
  span : Span := {}

mutual

/-- **A node of the markup.** -/
inductive Statement where
  | text (text : TextNode)
  | comment (comment : Comment)
  | element (element : Element)
  | mustache (mustache : Mustache)
  | block (block : Block)
  | component (component : Component)

/-- **An element**: a tag with attributes, helper calls inside the tag, and children. -/
structure Element where
  tag : String
  attributes : List Attribute := []
  helpers : List Call := []
  children : List Statement := []
  span : Span := {}

/-- **A block**: a call that renders its body, or its inverse. -/
structure Block where
  call : Call
  body : Fragment
  inverse : Option Fragment := none
  span : Span := {}

/-- **A component**: a custom element, invoked with its attributes and a body. -/
structure Component where
  tag : String
  attributes : List Attribute := []
  body : Fragment
  span : Span := {}

/-- **A fragment**: a list of statements with parameters of its own. -/
structure Fragment where
  body : List Statement
  blockParams : List String := []
  span : Span := {}

end

instance : Inhabited Statement := ⟨.text { chars := "" }⟩

/-- The fragment without statements. -/
def Fragment.empty : Fragment where
  body := []

/-- Some attribute is named `checked`; cloning loses it, so it has to be restored. -/
def Element.isChecked (e : Element) : Bool := e.attributes.any (·.name == "checked")

namespace Statement

/-- The name of a kind of node. -/
def kind : Statement → String
  | .text _ => "TextNode"
  | .comment _ => "CommentStatement"
  | .element _ => "ElementNode"
  | .mustache _ => "MustacheStatement"
  | .block _ => "BlockStatement"
  | .component _ => "ComponentNode"

/-- The node is filled in at hydration, and not only cloned. -/
def isDynamic : Statement → Bool
  | .mustache _ | .block _ | .component _ => true
  | _ => false

/-- The node is a text without characters. -/
def isBlank : Statement → Bool
  | .text t => t.chars == ""
  | _ => false

/-- Where a node was written. -/
def span : Statement → Span
  | .text t => t.span
  | .comment c => c.span
  | .element e => e.span
  | .mustache m => m.span
  | .block b => b.span
  | .component c => c.span

end Statement

end Hydration.Template

namespace Hydration

/-- **A template**: its root fragment and, for error messages, the text it was written as. -/
structure Template where
  source : Option String := none
  root : Template.Fragment

end Hydration
