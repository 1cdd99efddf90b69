import Hydration.Proofs.Progress

/-!
# Proofs/Kinds — instructions with the same name

The name of an instruction says what operands it has, so two instructions with the same name differ
at most in their operands: `Opcode.same_kind_cases` goes through pairs of such instructions, kind by
kind. `Program.numbers` lists the number literals of a program and of all that is nested in it.
-/

namespace Hydration

/-- Lists are equal if their items are told apart by their images, and these are equal. -/
theorem eq_of_map_eq {α β : Type} {f : α → β} {xs ys : List α}
    (hf : ∀ x ∈ xs, ∀ y ∈ ys, f x = f y → x = y) (h : xs.map f = ys.map f) : xs = ys := by
  induction xs generalizing ys with
  | nil => exact (List.map_eq_nil_iff.mp h.symm).symm
  | cons x xs ih =>
    cases ys with
    | nil => exact absurd h (by simp)
    | cons y ys =>
      obtain ⟨hx, hxs⟩ := List.cons.inj h
      rw [hf x List.mem_cons_self y List.mem_cons_self hx, ih (fun x' hx' y' hy' =>
        hf x' (List.mem_cons_of_mem x hx') y' (List.mem_cons_of_mem y hy')) hxs]

variable {ι : Type}

namespace Opcode

/-- **Instructions with the same name are of one kind.** -/
@[elab_as_elim]
theorem same_kind_cases {motive : (a b : Opcode ι) → a.name = b.name → Prop}
    (blockParam : ∀ name index name' index',
      motive (.blockParam name index) (.blockParam name' index') rfl)
    (repairClonedNode : ∀ blanks checked blanks' checked',
      motive (.repairClonedNode blanks checked) (.repairClonedNode blanks' checked') rfl)
    (consumeParent : ∀ index index', motive (.consumeParent index) (.consumeParent index') rfl)
    (element : ∀ number number', motive (.element number) (.element number') rfl)
    (popParent : motive .popParent .popParent rfl)
    (program : ∀ body inverse body' inverse',
      motive (.program body inverse) (.program body' inverse') rfl)
    (string : ∀ name name', motive (.string name) (.string name') rfl)
    (stringLiteral : ∀ value value', motive (.stringLiteral value) (.stringLiteral value') rfl)
    (literal : ∀ value value', motive (.literal value) (.literal value') rfl)
    (id : ∀ segments segments', motive (.id segments) (.id segments') rfl)
    (sexpr : ∀ params params', motive (.sexpr params) (.sexpr params') rfl)
    (stackLiteral : ∀ value value', motive (.stackLiteral value) (.stackLiteral value') rfl)
    («attribute» : ∀ quoted name parts element quoted' name' parts' element',
      motive (.attribute quoted name parts element) (.attribute quoted' name' parts' element') rfl)
    (nodeHelper : ∀ params element params' element',
      motive (.nodeHelper params element) (.nodeHelper params' element') rfl)
    (helper : ∀ params morph blockParams params' morph' blockParams',
      motive (.helper params morph blockParams) (.helper params' morph' blockParams') rfl)
    (ambiguous : ∀ morph morph', motive (.ambiguous morph) (.ambiguous morph') rfl)
    (component : ∀ morph blockParams morph' blockParams',
      motive (.component morph blockParams) (.component morph' blockParams') rfl)
    (morph : ∀ m m', motive (.morph m) (.morph m') rfl)
    (a b : Opcode ι) (same : a.name = b.name) : motive a b same := by
  -- Of all pairs of kinds only the equal ones have the same name; each of these is an assumption.
  cases a <;> cases b <;> first | apply_assumption | exact absurd same (by simp [name])

/-- The number an instruction pushes. -/
def number? : Opcode ι → Option Binary64
  | .literal (.number x) => some x
  | _ => none

end Opcode

/-! ## Programs and what is nested in them -/

namespace Program

mutual

/-- **The number literals of a program**, those of nested programs included. -/
def numbers : Program ι → List Binary64
  | ⟨ops, children⟩ => ops.filterMap Opcode.number? ++ numbersIn children

/-- The number literals of nested programs. -/
def numbersIn : List (Program ι) → List Binary64
  | [] => []
  | child :: children => child.numbers ++ numbersIn children

end

/-- Numbers that an instruction pushes are among those of its program. -/
theorem mem_numbers_of_literal {p : Program ι} {x : Binary64}
    (h : .literal (.number x) ∈ p.opcodes) : x ∈ p.numbers := by
  obtain ⟨ops, children⟩ := p
  rw [numbers]
  exact List.mem_append_left _ (List.mem_filterMap.mpr ⟨_, h, rfl⟩)

theorem mem_numbersIn {children : List (Program ι)} {c : Program ι} (hc : c ∈ children)
    {x : Binary64} (hx : x ∈ c.numbers) : x ∈ numbersIn children := by
  induction children with
  | nil => exact absurd hc List.not_mem_nil
  | cons child children ih =>
    rw [numbersIn, List.mem_append]
    rcases List.mem_cons.mp hc with rfl | hc
    · exact .inl hx
    · exact .inr (ih hc)

/-- …and so are the numbers of nested programs. -/
theorem mem_numbers_of_child {p c : Program ι} (hc : c ∈ p.children) {x : Binary64}
    (hx : x ∈ c.numbers) : x ∈ p.numbers := by
  obtain ⟨ops, children⟩ := p
  rw [numbers]
  exact List.mem_append_right _ (mem_numbersIn hc hx)

/-- **Induction over nesting**: what holds of a program once it holds of the programs nested in it
holds of all. -/
@[elab_as_elim]
theorem nested_induction {motive : Program ι → Prop}
    (step : ∀ p : Program ι, (∀ c ∈ p.children, motive c) → motive p) : ∀ p, motive p
  | ⟨ops, children⟩ => step ⟨ops, children⟩ fun c _ => nested_induction step c

end Program

/-! ## A program to look at -/

/-- A block with a number, a truth value and a string to be escaped. -/
def Template.ration : Template where
  root := {
    body := [
      .block {
        call := {
          callee := { segments := ["take"] }
          params := [.number ⟨0x4004000000000000⟩ {}, .boolean true {}, .string "a \"b\"\n" {}] }
        body := {
          body := [.mustache { call := { callee := { segments := ["this", "name"] } } }] } }] }

/-- What it compiles to, written out. -/
def Program.ration : Program UInt32 where
  opcodes := [
    .morph { id := 0, path := [], start := none, stop := none, escaped := true },
    .program (some 0) none,
    .string "take",
    .literal (.number ⟨0x4004000000000000⟩),
    .literal (.boolean true),
    .stringLiteral "a \"b\"\n",
    .stackLiteral (.count 0),
    .helper 3 0 (some 0)]
  children := [{
    opcodes := [
      .morph { id := 0, path := [], start := none, stop := none, escaped := true },
      .string "this.name",
      .ambiguous 0] }]

end Hydration
