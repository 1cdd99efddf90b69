import Hydration.Proofs.Document

/-!
# Proofs/Steps — a walk as a run of steps

A walk enters every node of a fragment in document order and leaves it again after what is inside it
(`visits`). `perform` is what the assembler does at one such step, and `walk_eq_forM` says that a
walk is nothing but these steps in a row; what is shown of one step then carries over to whole
walks.
-/

namespace Hydration

open Template Counter

variable {ι : Type}

namespace Assembler

/-- Goes back to the parent of an element, unless it is the only root. -/
def depart (single : Bool) : Assemble ι Unit := if single then pure () else push .popParent

/-- **Closing an element, part by part.** -/
theorem endElement_eq (single : Bool) :
    (endElement single : Assemble ι Unit) = (do
      flush
      depart single
      modify fun e => { e with cursor := e.cursor.ascend }) := by
  unfold endElement depart
  cases single <;> simp

/-- Stops at a component without a tag. -/
def requireTag (c : Component) : Assemble ι Unit :=
  if c.tag = "" then throw ⟨.emptyTag, c.span⟩ else pure ()

variable [Counter ι]

/-- Enters the clone of an element, unless it is the only root; a reference used often enough is
taken right away. -/
def arrive (o : Options) (single : Bool) (uses index : ι) : Assemble ι Unit :=
  if single then pure ()
  else do
    push (.consumeParent index)
    if o.cacheThreshold.toNat < toNat uses then discard reference else pure ()

/-- **Opening an element, part by part.** -/
theorem startElement_eq (o : Options) (element : Element) (single : Bool) (uses : ι)
    (blanks : List ι) :
    startElement o element single uses blanks = (do
      flush
      let index ← visit
      modify ({ · with unreferenced := true })
      arrive o single uses index
      (repair o blanks element.isChecked).forM push
      modify fun e => { e with cursor := e.cursor.descend index }
      element.attributes.forM setAttribute
      element.helpers.forM nodeHelper) := by
  unfold startElement arrive
  cases single with
  | true => simp
  | false => by_cases h : o.cacheThreshold.toNat < toNat uses <;> simp [h]

/-- **A component, part by part.** -/
theorem component_eq (c : Component) (index length : Nat) (body : Program ι) :
    component c index length body = (do
      requireTag c
      let morph ← place index length false
      let body ← addChild body
      push (.program (some body) none)
      write (.one (.string c.tag) ++ (attributesHash c.attributes).code)
      push (.component morph (ofNat c.body.blockParams.length))) := by
  unfold component requireTag
  by_cases h : c.tag = "" <;> simp [h]

end Assembler

/-! ## Entering and leaving a node -/

open Assembler

variable [Counter ι]

/-- What the assembler does when a node is entered; nested fragments are compiled first. -/
def enter (o : Options) (ν : Node) : Assemble ι Unit :=
  match ν.statement with
  | .text _ | .comment _ => pass
  | .element e => startElement o e ν.isSole (ofNat e.uses) (blanks e.children)
  | .mustache m => mustache m ν.index ν.siblings
  | .block b => do
    let body ← (b.body.compile o).absorb
    let inverse ← b.inverse.mapM fun f => (f.compile o).absorb
    block b ν.index ν.siblings body inverse
  | .component c => do
    let body ← (c.body.compile o).absorb
    component c ν.index ν.siblings body

/-- What the assembler does when a node is left. -/
def leave (ν : Node) : Assemble ι Unit :=
  match ν.statement with
  | .element _ => endElement ν.isSole
  | _ => pure ()

/-- **One step of a walk.** -/
def perform (o : Options) : Visit → Assemble ι Unit
  | .enter ν => enter o ν
  | .leave ν => leave ν

/-- **A node from end to end**: it is entered, what is inside it is walked over, and it is left. -/
def traverse (o : Options) (ν : Node) : Assemble ι Unit := do
  enter o ν
  walk o false ν.statement.children.length 0 ν.statement.children
  leave ν

theorem walk_nil (o : Options) (single : Bool) (length index : Nat) :
    (walk o single length index [] : Assemble ι Unit) = pure () := by
  rw [walk]

/-- **A walk traverses a node and goes on behind it.** -/
theorem walk_cons (o : Options) (path : List Nat) (length index : Nat) (s : Statement)
    (rest : List Statement) :
    (walk o (path.isEmpty && length == 1) length index (s :: rest) : Assemble ι Unit) = (do
      traverse o ⟨path, index, length, s⟩
      walk o (path.isEmpty && length == 1) length (index + 1) rest) := by
  rcases s with t | c | ⟨tag, attributes, helpers, children, span⟩ | m |
    ⟨call, body, inverse, span⟩ | ⟨tag, attributes, body, span⟩
  case block =>
    cases inverse <;> rw [walk] <;>
      simp [traverse, enter, leave, Statement.children, walk_nil]
  all_goals
    rw [walk]
    simp [traverse, enter, leave, Node.isSole, Statement.children, walk_nil]

/-- **A walk is its steps in a row.** -/
theorem walk_eq_forM (o : Options) (path : List Nat) (length index : Nat)
    (statements : List Statement) :
    (walk o (path.isEmpty && length == 1) length index statements : Assemble ι Unit) =
      (visits path length index statements).forM (perform o) := by
  induction statements using Statement.inside_induction generalizing path length index with
  | nil => rw [walk_nil, visits_nil]; rfl
  | cons s rest ihs ihr =>
    have hs := ihs (path ++ [index]) s.children.length 0
    rw [show (path ++ [index]).isEmpty = false by simp, Bool.false_and] at hs
    rw [walk_cons, visits_cons, traverse, hs, ihr]
    simp [perform]

/-- **Compiling a fragment is a walk over its body**, from a new program to the finished one. -/
theorem compile_eq_run (o : Options) (f : Fragment) :
    (f.compile o : Compiled ι) = Compiled.run (Assembler.start o f.blockParams (blanks f.body))
      (walk o (f.body.length == 1) f.body.length 0 f.body) := by
  obtain ⟨body, params, span⟩ := f
  rw [Fragment.compile]

/-- The walk over a whole fragment makes its visits. -/
theorem walk_body_eq_forM (o : Options) (f : Fragment) :
    (walk o (f.body.length == 1) f.body.length 0 f.body : Assemble ι Unit) =
      f.visits.forM (perform o) :=
  walk_eq_forM o [] f.body.length 0 f.body

end Hydration
