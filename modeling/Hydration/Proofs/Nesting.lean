import Hydration.Compiler
import Hydration.Proofs.Run
import Mathlib.Data.List.Forall2

/-!
# Proofs/Nesting — a program and the programs nested in it

The nested programs of a compiled fragment are those of its nested fragments, in document order.
`Throughout P f p` says that `P` holds of a fragment and its program and, in turn, of each fragment
nested in it and the nested program of the same number. What holds of every fragment that compiles
holds throughout the program of a template (`throughout_of_program`). `ThroughoutBoth` is the same
for two programs of one fragment.
-/

namespace Hydration

open Template

variable {ι : Type}

/-- **`P` holds of a fragment and its program, and of everything nested in them.** -/
inductive Throughout (P : Fragment → Program ι → Prop) : Fragment → Program ι → Prop where
  | intro {f : Fragment} {p : Program ι} (here : P f p)
      (nested : List.Forall₂ (Throughout P) f.nested p.children) : Throughout P f p

/-- Fragments nested in one with nothing wrong have nothing wrong. -/
theorem violations_of_nested {f g : Fragment} (hv : f.violations = []) (hg : g ∈ f.nested) :
    g.violations = [] := by
  obtain ⟨ν, hν, hg⟩ := List.mem_flatMap.mp hg
  exact violations_of_mem_nested (violations_of_mem_nodes hv hν) hg

variable [Counter ι] [Counter.Lawful ι]

/-- **The program of a fragment with nothing wrong.** -/
theorem output_eq (o : Options) {f : Fragment} (hv : f.violations = []) :
    (f.output o : Program ι) = ⟨hoist (f.stream o), f.nested.map (Fragment.output o)⟩ := by
  rw [Fragment.output, result_compile o hv]
  rfl

/-- **What holds of every fragment with nothing wrong holds throughout its program.** A further
condition `H` may be asked for that nested fragments inherit. -/
theorem throughout_output (o : Options) {H : Fragment → Prop}
    (inherit : ∀ f g : Fragment, H f → g ∈ f.nested → H g) {P : Fragment → Program ι → Prop}
    (holds : ∀ f : Fragment, f.violations = [] → H f →
      P f ⟨hoist (f.stream o), f.nested.map (Fragment.output o)⟩)
    {f : Fragment} (hv : f.violations = []) (hf : H f) : Throughout P f (f.output o) := by
  induction f using Fragment.nested_induction with
  | step f ih =>
    rw [output_eq o hv]
    refine .intro (holds f hv hf) (List.forall₂_map_right_iff.mpr (List.forall₂_same.mpr ?_))
    intro g hg
    exact ih g hg (violations_of_nested hv hg) (inherit f g hf hg)

omit [Counter ι] [Counter.Lawful ι] in
/-- A program is what its root fragment compiles to. -/
theorem compile_of_program {t : Template} {o : Options} {p : Program UInt32}
    (h : t.program o = .ok p) : (t.root.compile o : Compiled UInt32).result = .ok p := by
  rw [Template.program, Template.compile] at h
  cases hr : (t.root.compile o : Compiled UInt32).result with
  | ok q =>
    rw [hr] at h
    exact congrArg Except.ok (Except.ok.inj h)
  | error v =>
    rw [hr] at h
    exact absurd h (by simp [Except.mapError])

/-- **What holds of every fragment that compiles holds throughout the program of a template.** -/
theorem throughout_of_program {o : Options} {H : Fragment → Prop}
    (inherit : ∀ f g : Fragment, H f → g ∈ f.nested → H g)
    {P : Fragment → Program UInt32 → Prop}
    (holds : ∀ f : Fragment, f.violations = [] → H f →
      P f ⟨hoist (f.stream o), f.nested.map (Fragment.output o)⟩)
    {t : Template} {p : Program UInt32} (h : t.program o = .ok p) (hf : H t.root) :
    Throughout P t.root p := by
  have hr := compile_of_program h
  have hv : t.root.violations = [] := (compile_eq_ok_iff o t.root).mp ⟨p, hr⟩
  have hp : t.root.output o = p := by
    rw [Fragment.output, hr]
    rfl
  rw [← hp]
  exact throughout_output o inherit holds hv hf

omit [Counter ι] [Counter.Lawful ι] in
/-- A template with nothing wrong has the program of its root fragment. -/
theorem program_of_valid (o : Options) {t : Template} (hv : t.root.violations = []) :
    t.program o = .ok (t.root.output o) := by
  rw [Template.program, Template.compile, result_eq_output o hv]
  rfl

omit [Counter ι] [Counter.Lawful ι] in
/-- Any other is refused for its first violation, whatever the options are. -/
theorem program_of_violation (o : Options) {t : Template} {v : Violation}
    (hv : t.root.violations.head? = some v) :
    t.program o = .error (Diagnostic.ofViolation t.source v) := by
  have hf := fault?_compile (ι := UInt32) o t.root
  rw [hv, Compiled.fault?] at hf
  rw [Template.program, Template.compile]
  cases hr : (t.root.compile o : Compiled UInt32).result with
  | ok p =>
    rw [hr] at hf
    exact absurd hf (by simp)
  | error w =>
    rw [hr] at hf
    rw [Option.some.inj hf]
    rfl

/-! ## Two programs of one fragment -/

/-- **`P` holds of a fragment and two programs for it, and of everything nested in them.** -/
inductive ThroughoutBoth (P : Fragment → Program ι → Program ι → Prop) :
    Fragment → Program ι → Program ι → Prop where
  | intro {f : Fragment} {p q : Program ι} {children : List (Program ι × Program ι)}
      (here : P f p q) (left : p.children = children.map Prod.fst)
      (right : q.children = children.map Prod.snd)
      (nested : List.Forall₂ (fun g c => ThroughoutBoth P g c.1 c.2) f.nested children) :
      ThroughoutBoth P f p q

/-- **What holds of every fragment with nothing wrong, compiled with either options, holds
throughout the two programs.** -/
theorem throughoutBoth_output (o o' : Options) {P : Fragment → Program ι → Program ι → Prop}
    (holds : ∀ f : Fragment, f.violations = [] →
      P f ⟨hoist (f.stream o), f.nested.map (Fragment.output o)⟩
        ⟨hoist (f.stream o'), f.nested.map (Fragment.output o')⟩)
    {f : Fragment} (hv : f.violations = []) :
    ThroughoutBoth P f (f.output o) (f.output o') := by
  induction f using Fragment.nested_induction with
  | step f ih =>
    rw [output_eq o hv, output_eq o' hv]
    have nested : List.Forall₂ (fun g c => ThroughoutBoth P g c.1 c.2) f.nested
        (f.nested.map fun g => (g.output o, g.output o')) :=
      List.forall₂_map_right_iff.mpr (List.forall₂_same.mpr fun g hg =>
        ih g hg (violations_of_nested hv hg))
    refine .intro (holds f hv) ?_ ?_ nested
    · rw [List.map_map]
      rfl
    · rw [List.map_map]
      rfl

/-! ## A template to look at -/

/-- **A list between a title and a footer**: text around dynamic nodes, an element that is bound in
its tag, a block with an inverse, and a component. -/
def Template.roster : Template where
  root := {
    body := [
      .mustache { call := { callee := { segments := ["title"] } } },
      .element {
        tag := "ul"
        attributes := [{
          name := "class"
          value := [.text { chars := "list " }, .path { segments := ["kind"] }] }]
        helpers := [{
          callee := { segments := ["on"] }
          params := [.string "click" {}, .sub {
            callee := { segments := ["pick"] }
            hash := some {
              pairs := [{ key := "by", value := .path { segments := ["this", "id"] } }] } }] }]
        children := [
          .text { chars := "" },
          .block {
            call := {
              callee := { segments := ["each"] }
              params := [.path { segments := ["items"] }] }
            body := {
              body := [.element {
                tag := "li"
                children := [
                  .mustache { call := { callee := { segments := ["item", "name"] } } },
                  .text { chars := ", " },
                  .mustache { call := { callee := { segments := ["note"] } }, escaped := false }] }]
              blockParams := ["item"] }
            inverse := some { body := [.text { chars := "none" }] } }] },
      .component {
        tag := "page-footer"
        attributes := [{ name := "year", value := [.path { segments := ["year"] }] }]
        body := { body := [.mustache { call := { callee := { segments := ["yield"] } } }] } }] }

theorem roster_compiles : ∃ p, Template.roster.program {} = .ok p := by
  have h : (Template.roster.program {}).toOption.isSome = true := by decide +kernel
  cases hp : Template.roster.program {} with
  | ok p => exact ⟨p, rfl⟩
  | error e =>
    rw [hp] at h
    exact absurd h Bool.false_ne_true

end Hydration
