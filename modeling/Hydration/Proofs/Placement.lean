import Hydration.Proofs.Nesting

/-!
# Proofs/Placement — placing morphs late is hoisting them

A tape holds morphs back and splices them in behind an anchor, at three different moments: before an
element is opened, before it is closed, and at the end. What comes of it is described without any of
that: write each morph where it is met, and hoist the stream.

* `program_isHoisted`: the opcodes of a program, and of every program nested in it, are those
  compiled in place, hoisted.
-/

namespace Hydration

open Template

/-- **The opcodes of a program are those its fragment has with every morph written where it is
met**, hoisted. -/
def IsHoisted (o : Options) (f : Fragment) (p : Program UInt32) : Prop :=
  ∃ naive : Program UInt32, (f.compileInPlace o).result = .ok naive ∧
    p.opcodes = hoist naive.opcodes

/-- **Holding morphs back is writing them where they are met and hoisting the stream**, in a program
and in every program nested in it. -/
theorem program_isHoisted {t : Template} {o : Options} {p : Program UInt32}
    (h : t.program o = .ok p) : Throughout (IsHoisted o) t.root p := by
  refine throughout_of_program (H := fun _ => True) (fun _ _ _ _ => trivial) ?_ h trivial
  intro f hv _
  exact ⟨⟨f.stream o, f.nested.map (Fragment.output o)⟩, result_compileInPlace o hv, rfl⟩

theorem program_isHoisted_roster :
    ∃ p, Template.roster.program {} = .ok p ∧ Throughout (IsHoisted {}) Template.roster.root p := by
  obtain ⟨p, hp⟩ := roster_compiles
  exact ⟨p, hp, program_isHoisted hp⟩

end Hydration
