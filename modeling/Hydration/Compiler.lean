import Hydration.Compile.Walk
import Hydration.Diagnostic

/-!
# Compiler — templates to programs

`Template.compile` gives the program of a template over any counting type; `Template.program` is
the program a runtime with 32-bit words takes.
-/

namespace Hydration

/-- **Compiles a template**, over any counting type. -/
def Template.compile {ι : Type} [Counter ι] (t : Template) (o : Options) : Compiled ι :=
  t.root.compile o

/-- **The program of a template**, or what is wrong with it. -/
def Template.program (t : Template) (o : Options) : Except Diagnostic (Program UInt32) :=
  (t.compile o).result.mapError (Diagnostic.ofViolation t.source)

end Hydration
