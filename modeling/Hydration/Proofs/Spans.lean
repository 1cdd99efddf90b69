import Hydration.Proofs.Violations

/-!
# Proofs/Spans — code without spans

Every node carries the span it was written at, and spans are for error messages only. What is
`plain` has none: the code of an expression without spans is that of the expression, but for the
span of the violation it stops at (`Expr.code_plain`), and so are its violations
(`Expr.violations_plain`). This goes for attributes too, which are joined by a call that takes over
their spans (`attributesHash_operand`).
-/

namespace Hydration

/-- The violation without its span. -/
def Violation.plain (v : Violation) : Violation := ⟨v.cause, {}⟩

theorem Violation.message_plain (v : Violation) : v.plain.message = v.message := rfl

namespace Template

/-! ## Leaving spans out -/

/-- A path without its span. -/
def Path.plain (p : Path) : Path := { segments := p.segments }

mutual

/-- **An expression without spans.** -/
def Expr.plain : Expr → Expr
  | .path p => .path p.plain
  | .sub c => .sub c.plain
  | .string value _ => .string value {}
  | .number value _ => .number value {}
  | .boolean value _ => .boolean value {}

/-- **A call without spans.** -/
def Call.plain : Call → Call
  | ⟨callee, params, none, _⟩ => {
      callee := callee.plain
      params := exprsPlain params }
  | ⟨callee, params, some ⟨pairs, _⟩, _⟩ => {
      callee := callee.plain
      params := exprsPlain params
      hash := some { pairs := pairsPlain pairs } }

/-- Expressions without spans. -/
def exprsPlain : List Expr → List Expr
  | [] => []
  | e :: es => e.plain :: exprsPlain es

/-- Named operands without spans. -/
def pairsPlain : List Pair → List Pair
  | [] => []
  | ⟨key, value, _⟩ :: pairs => { key, value := value.plain } :: pairsPlain pairs

end

/-- A piece of an attribute value without spans. -/
def Part.plain : Part → Part
  | .text t => .text { chars := t.chars }
  | .path p => .path p.plain
  | .sub c => .sub c.plain

/-- An attribute without spans. -/
def Attribute.plain (a : Attribute) : Attribute where
  name := a.name
  value := a.value.map Part.plain
  quoted := a.quoted

/-- An attribute of a component, which is an operand: quoted or not, it has the same value. -/
def Attribute.operand (a : Attribute) : Attribute where
  name := a.name
  value := a.value.map Part.plain

theorem exprsPlain_eq_map (es : List Expr) : exprsPlain es = es.map Expr.plain := by
  induction es with
  | nil => rw [exprsPlain, List.map_nil]
  | cons e es ih => rw [exprsPlain, List.map_cons, ih]

theorem pairsPlain_eq_map (pairs : List Pair) :
    pairsPlain pairs = pairs.map fun p => { key := p.key, value := p.value.plain } := by
  induction pairs with
  | nil => rw [pairsPlain, List.map_nil]
  | cons p pairs ih =>
    obtain ⟨key, value, span⟩ := p
    rw [pairsPlain, List.map_cons, ih]

theorem Call.length_params_plain (c : Call) : c.plain.params.length = c.params.length := by
  obtain ⟨callee, params, hash, span⟩ := c
  rcases hash with - | ⟨pairs, span⟩ <;> rw [Call.plain, exprsPlain_eq_map, List.length_map]

theorem Call.isHelper_plain (c : Call) : c.plain.isHelper = c.isHelper := by
  obtain ⟨callee, params, hash, span⟩ := c
  rcases hash with - | ⟨pairs, span⟩ <;>
    rw [Call.plain, isHelper, isHelper, exprsPlain_eq_map, List.isEmpty_map]
  rfl

theorem Call.callee_plain (c : Call) : c.plain.callee = c.callee.plain := by
  obtain ⟨callee, params, hash, span⟩ := c
  rcases hash with - | ⟨pairs, span⟩ <;> rw [Call.plain]

end Template

/-! ## Code -/

section

variable {ι : Type}

/-- Code that stops at the same violation, without its span. -/
def Code.plain (c : Code ι) : Code ι := ⟨c.opcodes, c.violation?.map Violation.plain⟩

theorem Code.plain_append (c d : Code ι) : (c ++ d).plain = c.plain ++ d.plain := by
  cases h : c.violation? with
  | some v =>
    have hp : c.plain.violation? = some v.plain := by rw [plain, h]; rfl
    rw [append_of_violation h, append_of_violation hp]
  | none =>
    have hp : c.plain.violation? = none := by rw [plain, h]; rfl
    rw [append_of_none h, append_of_none hp]
    rfl

end

namespace Template

variable {ι : Type}

theorem Path.violation?_plain (p : Path) :
    p.plain.violation? = p.violation?.map Violation.plain := by
  rw [Path.violation?, Path.violation?]
  change (if p.isBroken then _ else none) = _
  cases p.isBroken <;> rfl

theorem keyViolation?_plain (key : String) (span : Span) :
    keyViolation? key {} = (keyViolation? key span).map Violation.plain := by
  unfold keyViolation?
  split <;> rfl

theorem Path.nameCode_plain (p : Path) : (p.plain.nameCode : Code ι) = p.nameCode.plain := by
  rw [nameCode, nameCode, Code.plain_append, p.violation?_plain]
  rfl

theorem Path.code_plain (p : Path) : (p.plain.code : Code ι) = p.code.plain := by
  rw [code, code, Code.plain_append, p.violation?_plain]
  rfl

variable [Counter ι]

mutual

/-- **The code of an expression does not depend on spans.** -/
theorem Expr.code_plain (e : Expr) : (e.plain.code : Code ι) = e.code.plain := by
  match e with
  | .path p => rw [Expr.plain, Expr.code, Expr.code, p.code_plain]
  | .sub c =>
    rw [Expr.plain, Expr.code, Expr.code, Code.plain_append, Code.plain_append, c.code_plain,
      c.length_params_plain]
    rfl
  | .string .. | .number .. | .boolean .. => rw [Expr.plain, Expr.code, Expr.code]; rfl

/-- **The code of a call does not depend on spans.** -/
theorem Call.code_plain (c : Call) : (c.plain.code : Code ι) = c.code.plain := by
  match c with
  | ⟨callee, params, none, _⟩ =>
    rw [Call.plain, Call.code, Call.code, Code.plain_append, Code.plain_append,
      callee.nameCode_plain, exprsCode_plain]
    rfl
  | ⟨callee, params, some ⟨pairs, _⟩, _⟩ =>
    rw [Call.plain, Call.code, Call.code, Code.plain_append, Code.plain_append,
      Code.plain_append, callee.nameCode_plain, exprsCode_plain, pairsCode_plain,
      pairsPlain_eq_map, List.length_map]
    rfl

theorem exprsCode_plain (es : List Expr) :
    (exprsCode (exprsPlain es) : Code ι) = (exprsCode es).plain := by
  match es with
  | [] => rw [exprsPlain, exprsCode]; rfl
  | e :: es =>
    rw [exprsPlain, exprsCode, exprsCode, Code.plain_append, e.code_plain, exprsCode_plain]

theorem pairsCode_plain (pairs : List Pair) :
    (pairsCode (pairsPlain pairs) : Code ι) = (pairsCode pairs).plain := by
  match pairs with
  | [] => rw [pairsPlain, pairsCode]; rfl
  | ⟨key, value, span⟩ :: pairs =>
    rw [pairsPlain, pairsCode, pairsCode, Code.plain_append, Code.plain_append, Code.plain_append,
      value.code_plain, pairsCode_plain, keyViolation?_plain key span]
    rfl

end

/-! ### Attributes -/

theorem Part.toExpr_plain (p : Part) : p.plain.toExpr = p.toExpr.plain := by
  cases p <;> rw [Part.plain, Part.toExpr, Part.toExpr, Expr.plain]

theorem map_toExpr_map_plain (parts : List Part) :
    (parts.map Part.plain).map Part.toExpr = exprsPlain (parts.map Part.toExpr) := by
  rw [exprsPlain_eq_map, List.map_map, List.map_map]
  exact List.map_congr_left fun p _ => p.toExpr_plain

theorem Attribute.isStatic_plain (a : Attribute) : a.plain.isStatic = a.isStatic := by
  rw [isStatic, isStatic, plain, List.all_map]
  refine congrArg a.value.all (funext fun p => ?_)
  cases p <;> rfl

theorem Attribute.code_plain (a : Attribute) : (a.plain.code : Code ι) = a.code.plain := by
  rw [code, code, plain, map_toExpr_map_plain, Code.plain_append, Code.plain_append,
    exprsCode_plain]
  rfl

/-- The call that joins the pieces of a value has no other span than the attribute. -/
theorem Attribute.toExpr_operand (a : Attribute) : a.operand.toExpr = a.toExpr.plain := by
  obtain ⟨name, value, quoted, span⟩ := a
  match value with
  | [] =>
    rw [operand, toExpr, toExpr, Expr.plain]
    rfl
  | [part] => exact part.toExpr_plain
  | first :: second :: rest =>
    have hp := map_toExpr_map_plain (first :: second :: rest)
    change _ = Expr.plain (.sub _)
    rw [Expr.plain, Call.plain, ← hp]
    rfl

theorem attributesHash_operand (attributes : List Attribute) :
    ((attributesHash (attributes.map Attribute.operand)).code : Code ι) =
      (attributesHash attributes).code.plain := by
  have hp : (attributesHash (attributes.map Attribute.operand)).pairs =
      pairsPlain (attributesHash attributes).pairs := by
    change (attributes.map Attribute.operand).map _ = pairsPlain (attributes.map _)
    rw [pairsPlain_eq_map, List.map_map, List.map_map]
    refine List.map_congr_left fun a _ => ?_
    simp only [Function.comp_apply, a.toExpr_operand]
    rfl
  rw [Hash.code, Hash.code, Code.plain_append, hp, pairsCode_plain, pairsPlain_eq_map,
    List.length_map]
  rfl

/-! ## Violations -/

theorem Path.violations_plain (p : Path) :
    p.plain.violations = p.violations.map Violation.plain := by
  rw [violations_eq, violations_eq, p.violation?_plain, Option.toList_map]

theorem nameViolation?_plain (name : String) (span : Span) :
    nameViolation? name {} = (nameViolation? name span).map Violation.plain := by
  rw [nameViolation?_eq, nameViolation?_eq, keyViolation?_plain name span]

mutual

/-- **The violations of an expression are the same but for spans.** -/
theorem Expr.violations_plain (e : Expr) :
    e.plain.violations = e.violations.map Violation.plain := by
  match e with
  | .path p => rw [Expr.plain, Expr.violations, Expr.violations, p.violations_plain]
  | .sub c => rw [Expr.plain, Expr.violations, Expr.violations, c.violations_plain]
  | .string .. | .number .. | .boolean .. =>
    rw [Expr.plain, Expr.violations, Expr.violations, List.map_nil]

/-- **The violations of a call are the same but for spans.** -/
theorem Call.violations_plain (c : Call) :
    c.plain.violations = c.violations.map Violation.plain := by
  match c with
  | ⟨callee, params, none, _⟩ =>
    rw [Call.plain, Call.violations, Call.violations, List.map_append, List.map_append,
      callee.violations_plain, exprsViolations_plain, List.map_nil]
  | ⟨callee, params, some ⟨pairs, _⟩, _⟩ =>
    rw [Call.plain, Call.violations, Call.violations, List.map_append, List.map_append,
      callee.violations_plain, exprsViolations_plain, pairsViolations_plain]

theorem exprsViolations_plain (es : List Expr) :
    exprsViolations (exprsPlain es) = (exprsViolations es).map Violation.plain := by
  match es with
  | [] => rw [exprsPlain, exprsViolations, List.map_nil]
  | e :: es =>
    rw [exprsPlain, exprsViolations, exprsViolations, List.map_append, e.violations_plain,
      exprsViolations_plain]

theorem pairsViolations_plain (pairs : List Pair) :
    pairsViolations (pairsPlain pairs) = (pairsViolations pairs).map Violation.plain := by
  match pairs with
  | [] => rw [pairsPlain, pairsViolations, List.map_nil]
  | ⟨key, value, span⟩ :: pairs =>
    rw [pairsPlain, pairsViolations, pairsViolations, List.map_append, List.map_append,
      value.violations_plain, pairsViolations_plain, nameViolation?_plain key span,
      Option.toList_map]

end

theorem Part.violations_plain (p : Part) :
    p.plain.violations = p.violations.map Violation.plain := by
  rw [← p.plain.violations_toExpr, p.toExpr_plain, p.toExpr.violations_plain, p.violations_toExpr]

theorem Attribute.violations_plain (a : Attribute) :
    a.plain.violations = a.violations.map Violation.plain := by
  rw [violations, violations, plain, List.flatMap_map, List.map_flatMap]
  simp only [Part.violations_plain]

end Template

end Hydration
