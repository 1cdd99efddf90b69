import Hydration.Counter

/-!
# Compile/Cursor — a position in the markup

The compiler walks the markup depth first and always knows where in the clone it is: the position
among the siblings last visited, and the positions of the elements around it, outermost first.
-/

namespace Hydration

/-- **A position in the markup.** -/
structure Cursor (ι : Type) where
  /-- The sibling last visited on this level, if any. -/
  current : Option ι := none
  /-- The positions of the open elements, outermost first. -/
  path : List ι := []
deriving DecidableEq, Repr

namespace Cursor

variable {ι : Type}

instance : Inhabited (Cursor ι) := ⟨{}⟩

/-- Visits the next sibling; its position, and the cursor there. -/
def visit [Counter ι] (c : Cursor ι) : ι × Cursor ι :=
  let i := Counter.after c.current
  (i, { c with current := some i })

/-- Goes down to the children of the node at a position. -/
def descend (c : Cursor ι) (index : ι) : Cursor ι :=
  ⟨none, c.path ++ [index]⟩

/-- Goes back up; the parent is then the sibling last visited. -/
def ascend (c : Cursor ι) : Cursor ι :=
  ⟨c.path.getLast?, c.path.dropLast⟩

/-- **Going down and up again is a visit to the node**, whatever was visited below it. -/
theorem ascend_descend (c : Cursor ι) (index : ι) (below : Option ι) :
    ({ c.descend index with current := below } : Cursor ι).ascend = ⟨some index, c.path⟩ := by
  simp [ascend, descend]

@[simp] theorem path_visit [Counter ι] (c : Cursor ι) : c.visit.2.path = c.path := rfl

end Cursor

end Hydration
